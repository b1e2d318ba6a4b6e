import Cadence.Module.Catalogue
import Cadence.Proofs.Engine.Calls
import Cadence.Proofs.Engine.Iterations

/-!
# Runs that are resumed

A step that fails leaves nothing behind but its error, so the next step fails in the same way, and a
run that is resumed behind a failure ends where it is. A run in two parts is therefore the run of
all steps, wherever a failure falls.

* `Stepper.Sticky`: a step that fails is repeated by the next one;
* `Stepper.runIterations_cases`: the first step of a run;
* **`Engine.step_step_of_error`**: the steps of engines are sticky;
* **`Stepper.runIterations_add`**: a run in two parts;
* `Stepper.engine_runIterations`: what a run leaves;
* `Stepper.history_spec`, `Stepper.length_history_lt_iff`: the history of a run;
* **`Engine.runs_resume`**: runs of an engine.
-/

namespace Cadence

variable {ε : Type}

namespace Stepper

/-- A step that fails is repeated by the next one, and changes nothing more. -/
def Sticky (S : Stepper ε) : Prop :=
  ∀ e, (S.snapshot (S.step e)).error ≠ none → S.step (S.step e) = S.step e

variable {S : Stepper ε} {e : ε} {n : Nat}

/-- **The first step of a run** fails, and the run is over, or it is the first entry of the history
and the run goes on. -/
theorem runIterations_cases (sound : S.Sound) (e : ε) :
    ((S.snapshot (S.step e)).error ≠ none ∧ ∀ n, S.runIterations (n + 1) e = ([], S.step e)) ∨
    ((S.snapshot (S.step e)).error = none ∧ ∃ outputs,
      (S.snapshot (S.step e)).outputs = some outputs ∧
      ∀ n, S.runIterations (n + 1) e =
        (⟨(S.snapshot e).input, outputs⟩ :: (S.runIterations n (S.step e)).1,
          (S.runIterations n (S.step e)).2)) := by
  by_cases done : (S.snapshot (S.step e)).error = none
  · exact .inr ⟨done, runIterations_of_sound sound done⟩
  · exact .inl ⟨done, runIterations_of_error done⟩

/-! ## Behind a failure -/

theorem runIterations_of_stuck (stuck : S.step e = e) (failed : (S.snapshot e).error ≠ none)
    (n : Nat) : S.runIterations n e = ([], e) := by
  cases n with
  | zero => rfl
  | succ n =>
    have again : (S.snapshot (S.step e)).error ≠ none := by rwa [stuck]
    rw [runIterations_of_error again, stuck]

theorem reports_of_stuck (stuck : S.step e = e) {calls : List EngineCall}
    (idle : ∀ call ∈ calls, call = .step ∨ call = .snapshot) :
    ∀ s ∈ S.reports e calls, s = S.snapshot e := by
  induction calls with
  | nil => exact nofun
  | cons call calls ih =>
    obtain ⟨first, others⟩ := List.forall_mem_cons.mp idle
    have same : S.after e call = e := by
      rcases first with rfl | rfl
      · exact stuck
      · rfl
    rw [reports, same]
    exact List.forall_mem_cons.mpr ⟨rfl, ih others⟩

/-! ## Runs in two parts -/

/-- **A run in two parts** is the run of all steps. -/
theorem runIterations_add (sound : S.Sound) (sticky : S.Sticky) (m n : Nat) (e : ε) :
    S.runIterations (m + n) e =
      ((S.runIterations m e).1 ++ (S.runIterations n (S.runIterations m e).2).1,
        (S.runIterations n (S.runIterations m e).2).2) := by
  induction m generalizing e with
  | zero =>
    rw [Nat.zero_add]
    rfl
  | succ m ih =>
    rw [Nat.add_right_comm]
    obtain ⟨failed, ran⟩ | ⟨-, outputs, -, ran⟩ := runIterations_cases sound e
    -- the failure falls in the first part, and the second one does not come further
    · rw [ran, ran, runIterations_of_stuck (sticky e failed) failed]
      rfl
    · rw [ran, ran, ih]
      rfl

theorem engine_runIterations (sound : S.Sound) (sticky : S.Sticky) (n : Nat) (e : ε) :
    (S.runIterations n e).2 = S.step^[n] e := by
  induction n generalizing e with
  | zero => rfl
  | succ n ih =>
    rw [Function.iterate_succ_apply]
    obtain ⟨failed, ran⟩ | ⟨-, outputs, -, ran⟩ := runIterations_cases sound e
    · rw [ran, Function.iterate_fixed (sticky e failed)]
    · rw [ran, ih]

/-! ## Histories -/

theorem history_spec (sound : S.Sound) {i : Nat} {entry : IterationStep}
    (listed : (S.runIterations n e).1[i]? = some entry) :
    entry.input = (S.snapshot (S.step^[i] e)).input ∧
      (S.snapshot (S.step^[i + 1] e)).outputs = some entry.outputs ∧
      (S.snapshot (S.step^[i + 1] e)).error = none ∧
      (S.snapshot (S.step^[i + 1] e)).stepCount = (S.snapshot e).stepCount + i + 1 := by
  induction n generalizing e i with
  | zero => cases listed
  | succ n ih =>
    obtain ⟨-, ran⟩ | ⟨done, outputs, shown, ran⟩ := runIterations_cases sound e
    · rw [ran] at listed
      cases listed
    · have count := (sound e done).1
      rw [ran] at listed
      cases i with
      | zero =>
        cases listed
        exact ⟨rfl, shown, done, count⟩
      | succ i =>
        have later := ih (e := S.step e) listed
        rw [count, Nat.add_right_comm _ 1 i] at later
        exact later

theorem length_history_lt_iff (sound : S.Sound) :
    (S.runIterations n e).1.length < n ↔ ¬ S.Unfailing n e := by
  induction n generalizing e with
  | zero => exact iff_of_false (Nat.not_lt_zero _) fun fails => fails (unfailing_zero S e)
  | succ n ih =>
    rw [unfailing_succ_iff]
    obtain ⟨failed, ran⟩ | ⟨done, outputs, -, ran⟩ := runIterations_cases sound e
    · rw [ran]
      exact iff_of_true (Nat.succ_pos n) fun all => failed all.1
    · rw [ran, List.length_cons, Nat.succ_lt_succ_iff, ih, and_iff_right done]

theorem stuck_of_fails (sound : S.Sound) (sticky : S.Sticky) (fails : ¬ S.Unfailing n e) :
    (S.snapshot (S.runIterations n e).2).error ≠ none ∧
      S.step (S.runIterations n e).2 = (S.runIterations n e).2 := by
  induction n generalizing e with
  | zero => exact absurd (unfailing_zero S e) fails
  | succ n ih =>
    obtain ⟨failed, ran⟩ | ⟨done, outputs, -, ran⟩ := runIterations_cases sound e
    · rw [ran]
      exact ⟨failed, sticky e failed⟩
    · rw [ran]
      exact ih fun rest => fails (unfailing_succ_iff.mpr ⟨done, rest⟩)

end Stepper

namespace Engine

/-- **A step that fails is repeated by the next one**: it leaves what functions are called with, and
its own number. -/
theorem step_step_of_error {e : Engine} (failed : e.step.error ≠ none) :
    e.step.step = e.step := by
  cases attempted : e.attempt.result with
  | error fault =>
    have again : ({ e with error := some fault.message } : Engine).attempt.result =
        .error fault := attempted
    rw [step_error attempted, step_error again]
  | ok results =>
    rw [step_ok attempted] at failed
    exact absurd rfl failed

theorem stepper_sticky : stepper.Sticky := fun _ => step_step_of_error

theorem get?_step_of_done {e : Engine} {outputs : Record} (done : e.step.error = none)
    (shown : e.step.outputs = some outputs) :
    outputs.get? stepField = some (.nat e.step.stepCount) := by
  cases attempted : e.attempt.result with
  | error fault =>
    rw [step_error attempted] at done
    cases done
  | ok results =>
    rw [step_ok attempted] at shown ⊢
    cases shown
    exact e.stepOutputs_step results

/-- **Runs of an engine.** A run in two parts has the history and the final state of the run of all
steps. An entry of a history holds the input that its step started from, which is the one that the
step before it left, and the outputs of the step with its number. A history is shorter than asked
for exactly if a step failed; then every further step, until the input or the configuration is
replaced, fails with the snapshot that the run left. -/
theorem runs_resume (e : Engine) (m n : Nat) :
    let run := stepper.runIterations
    run (m + n) e = ((run m e).1 ++ (run n (run m e).2).1, (run n (run m e).2).2) ∧
    (run n e).2 = Engine.step^[n] e ∧
    (∀ i entry, (run n e).1[i]? = some entry →
      entry.input = (Engine.step^[i] e).input ∧
      (Engine.step^[i + 1] e).outputs = some entry.outputs ∧
      entry.outputs.get? stepField = some (.nat (e.stepCount + i + 1))) ∧
    ((run n e).1.length < n ↔ ∃ i < n, (Engine.step^[i + 1] e).error ≠ none) ∧
    ((run n e).1.length < n → (run n e).2.error ≠ none ∧
      ∀ calls : List EngineCall, (∀ call ∈ calls, call = .step ∨ call = .snapshot) →
        ∀ s ∈ stepper.reports (run n e).2 calls, s = (run n e).2.snapshot) := by
  intro run
  have short : (run n e).1.length < n ↔ ¬ stepper.Unfailing n e :=
    Stepper.length_history_lt_iff stepper_sound
  refine ⟨Stepper.runIterations_add stepper_sound stepper_sticky m n e,
    Stepper.engine_runIterations stepper_sound stepper_sticky n e, fun i entry listed => ?_, ?_,
    fun lt => ?_⟩
  · obtain ⟨input, shown, done, count⟩ := Stepper.history_spec stepper_sound listed
    refine ⟨input, shown, ?_⟩
    have after : stepper.step^[i + 1] e = (stepper.step^[i] e).step :=
      Function.iterate_succ_apply' Engine.step i e
    rw [after] at shown done count
    have numbered := get?_step_of_done done shown
    rwa [show (stepper.step^[i] e).step.stepCount = e.stepCount + i + 1 from count] at numbered
  · rw [short, Stepper.Unfailing]
    push Not
    rfl
  · obtain ⟨failed, stuck⟩ :=
      Stepper.stuck_of_fails stepper_sound stepper_sticky (short.mp lt)
    exact ⟨failed, fun calls => Stepper.reports_of_stuck stuck⟩

/-- An engine that counts from three and comes no further than five. -/
def toFive : Engine :=
  create (.ofExports "mem://five" [("_next", Catalogue.incToFive)]) ⟨[("next", {})], by decide⟩
    (.ofMappings [⟨"next", "count"⟩]) (Dict.empty.insert "count" (.int 3))

/-- The third step fails: a run of two steps is not short, and resuming it adds nothing. -/
theorem runs_resume_toFive :
    let run := stepper.runIterations
    (run 2 toFive).1.length = 2 ∧ (run (2 + 3) toFive).1 = (run 2 toFive).1 ∧
    (run (2 + 3) toFive).2.error ≠ none ∧
    ∀ calls : List EngineCall, (∀ call ∈ calls, call = .step ∨ call = .snapshot) →
      ∀ s ∈ stepper.reports (run (2 + 3) toFive).2 calls,
        s = (run (2 + 3) toFive).2.snapshot := by
  intro run
  have short : (run (2 + 3) toFive).1.length < 2 + 3 := by decide +kernel
  have nothing : (run 3 (run 2 toFive).2).1 = [] :=
    List.length_eq_zero_iff.mp (by decide +kernel)
  have parts : run (2 + 3) toFive = ((run 2 toFive).1 ++ (run 3 (run 2 toFive).2).1,
      (run 3 (run 2 toFive).2).2) := (runs_resume toFive 2 3).1
  obtain ⟨-, -, -, -, ended⟩ := runs_resume toFive 0 (2 + 3)
  obtain ⟨failed, stays⟩ := ended short
  refine ⟨by decide +kernel, ?_, failed, stays⟩
  rw [parts, nothing, List.append_nil]

end Engine

end Cadence
