import Cadence.Proofs.Engine.Attempt
import Cadence.Proofs.Engine.Calls
import Mathlib.Data.List.Induction

/-!
# Runs of an engine

Callers step an engine and replace its input and its configuration in any order. Three places hold
the number of a step: the input that functions see, the outputs, and the count.

* `EngineCall.successes`: the steps of a run that succeed;
* `EngineCall.EndInFailure`: the last call that decides about the error is a step that fails;
* `Engine.Bound`: the invariant of an engine with a module and a spec;
* **`Engine.run_invariant`**: count, outputs, error and input of an engine after any run.
-/

namespace Cadence

namespace EngineCall

/-- The call is a step that succeeds. -/
def succeeds (e : Engine) : EngineCall → Bool
  | .step => e.succeeds
  | .setInput _ | .setConfig _ | .snapshot => false

/-- The number of steps in a run that succeed. -/
def successes (e : Engine) : List EngineCall → Nat
  | [] => 0
  | call :: calls => (call.succeeds e).toNat + successes (Engine.stepper.after e call) calls

/-- The call decides whether there is an error. -/
def decides : EngineCall → Bool
  | .step | .setInput _ => true
  | .setConfig _ | .snapshot => false

/-- The last step or replacement of the input in a run is a step, and it fails. -/
def EndInFailure (e : Engine) (calls : List EngineCall) : Prop :=
  ∃ before after, calls = before ++ .step :: after ∧
    (Engine.stepper.runCalls e before).succeeds = false ∧ ∀ call ∈ after, call.decides = false

variable {e : Engine} {calls : List EngineCall}

theorem not_endInFailure_nil : ¬ EndInFailure e [] := by
  rintro ⟨before, after, eq, -⟩
  exact List.append_ne_nil_of_right_ne_nil before (List.cons_ne_nil _ after) eq.symm

theorem endInFailure_concat (e : Engine) (calls : List EngineCall) (call : EngineCall) :
    EndInFailure e (calls ++ [call]) ↔
      (call = .step ∧ (Engine.stepper.runCalls e calls).succeeds = false) ∨
      (call.decides = false ∧ EndInFailure e calls) := by
  constructor
  -- the last call is the failing step, or it comes behind it
  · rintro ⟨before, after, eq, fails, idle⟩
    rcases List.eq_nil_or_concat after with rfl | ⟨after, last, rfl⟩
    · obtain ⟨rfl, same⟩ := List.append_inj' eq rfl
      cases same
      exact .inl ⟨rfl, fails⟩
    · rw [List.concat_eq_append] at idle
      rw [List.concat_eq_append, ← List.cons_append, ← List.append_assoc] at eq
      obtain ⟨rfl, same⟩ := List.append_inj' eq rfl
      cases same
      refine .inr ⟨idle call (by simp), before, after, rfl, fails, fun c mem => ?_⟩
      exact idle c (List.mem_append_left _ mem)
  · rintro (⟨rfl, fails⟩ | ⟨idle, before, after, rfl, fails, rest⟩)
    · exact ⟨calls, [], rfl, fails, nofun⟩
    · refine ⟨before, after ++ [call], by simp, fails, fun c mem => ?_⟩
      rcases List.mem_append.mp mem with old | new
      · exact rest c old
      · rw [List.mem_singleton.mp new]
        exact idle

end EngineCall

namespace Engine

/-- An engine has a module and a spec, and its outputs are those of its last step. -/
structure Bound (m : Module) (spec : OutputSpec) (e : Engine) : Prop where
  module : e.module = m
  declared : e.outputSpec = spec
  shown : ∀ outputs, e.outputs = some outputs → spec.ShownBy outputs e.stepCount

variable {m : Module} {spec : OutputSpec} {e : Engine}

theorem Bound.step (h : Bound m spec e) : Bound m spec e.step := by
  refine ⟨e.step_module.trans h.module, e.step_outputSpec.trans h.declared, fun outputs shown => ?_⟩
  cases succeeds : e.succeeds with
  | true =>
    obtain ⟨count, -, o, eq, covers⟩ := step_of_succeeds succeeds
    rw [eq] at shown
    cases shown
    rw [count, ← h.declared]
    exact covers
  | false =>
    obtain ⟨fault, -, eq⟩ := step_of_fails succeeds
    rw [eq] at shown ⊢
    exact h.shown outputs shown

theorem bound_create (m : Module) (spec : OutputSpec) (config : ExecutionConfig) (input : Record) :
    Bound m spec (create m spec config input) :=
  ⟨rfl, rfl, nofun⟩

/-- Every call keeps the invariant. -/
theorem Bound.after (h : Bound m spec e) (call : EngineCall) :
    Bound m spec (stepper.after e call) := by
  cases call with
  | step => exact h.step
  | setInput input => exact ⟨h.module, h.declared, nofun⟩
  | setConfig config => exact ⟨h.module, h.declared, h.shown⟩
  | snapshot => exact h

theorem Bound.runCalls (h : Bound m spec e) (calls : List EngineCall) :
    Bound m spec (stepper.runCalls e calls) := by
  induction calls generalizing e with
  | nil => exact h
  | cons call calls ih => exact ih (h.after call)

theorem stepCount_after (e : Engine) (call : EngineCall) :
    (stepper.after e call).stepCount = e.stepCount + (call.succeeds e).toNat := by
  cases call with
  | step =>
    show e.step.stepCount = e.stepCount + e.succeeds.toNat
    cases succeeds : e.succeeds with
    | true => exact (step_of_succeeds succeeds).1
    | false =>
      obtain ⟨fault, -, eq⟩ := step_of_fails succeeds
      rw [eq]
      rfl
  | setInput | setConfig | snapshot => rfl

theorem stepCount_runCalls (e : Engine) (calls : List EngineCall) :
    (stepper.runCalls e calls).stepCount = e.stepCount + EngineCall.successes e calls := by
  induction calls generalizing e with
  | nil => rfl
  | cons call calls ih =>
    show (stepper.runCalls (stepper.after e call) calls).stepCount = _
    rw [ih, stepCount_after, EngineCall.successes, Nat.add_assoc]

theorem isSome_error_step (e : Engine) : e.step.error.isSome = !e.succeeds := by
  cases succeeds : e.succeeds with
  | true => rw [(step_of_succeeds succeeds).2.1]; rfl
  | false =>
    obtain ⟨fault, -, eq⟩ := step_of_fails succeeds
    rw [eq]
    rfl

theorem isSome_error_runCalls (fresh : e.error = none) (calls : List EngineCall) :
    (stepper.runCalls e calls).error.isSome = true ↔ EngineCall.EndInFailure e calls := by
  induction calls using List.reverseRecOn with
  | nil =>
    rw [show stepper.runCalls e [] = e from rfl, fresh]
    exact iff_of_false Bool.false_ne_true EngineCall.not_endInFailure_nil
  | append_singleton calls call ih =>
    have last : stepper.runCalls e (calls ++ [call]) =
        stepper.after (stepper.runCalls e calls) call := by
      simp [Stepper.runCalls]
    rw [last, EngineCall.endInFailure_concat, ← ih]
    cases call with
    | step =>
      show (stepper.runCalls e calls).step.error.isSome = true ↔ _
      simp [isSome_error_step, EngineCall.decides]
    | setInput => simp [Stepper.after, stepper, setInput, EngineCall.decides]
    | setConfig => simp [Stepper.after, stepper, setConfig, EngineCall.decides]
    | snapshot => simp [Stepper.after, EngineCall.decides]

/-- **Runs of an engine.** After any calls of a fresh engine, the count is the number of steps that
succeeded; the outputs, if there are any, are the declared ones with the count in the step field;
there is an error exactly if the last step or replacement of the input was a step that failed. The
next step calls functions with its own number in the step field only, and if it fails it changes
the error alone. -/
theorem run_invariant (m : Module) (spec : OutputSpec) (config : ExecutionConfig) (input : Record)
    (calls : List EngineCall) :
    let fresh := create m spec config input
    let e := stepper.runCalls fresh calls
    e.stepCount = EngineCall.successes fresh calls ∧
    (∀ outputs, e.outputs = some outputs → spec.ShownBy outputs e.stepCount) ∧
    (e.error.isSome = true ↔ EngineCall.EndInFailure fresh calls) ∧
    (∀ m', m.AgreeAt (e.stepCount + 1) m' →
      ({ e with module := m' } : Engine).attempt = e.attempt) ∧
    (e.succeeds = false →
      ∃ fault, e.Blames fault ∧ e.step = { e with error := some fault.message }) := by
  intro fresh e
  have bound : Bound m spec e := (bound_create m spec config input).runCalls calls
  refine ⟨?_, bound.shown, isSome_error_runCalls rfl calls, ?_, step_of_fails⟩
  · exact (stepCount_runCalls fresh calls).trans (Nat.zero_add _)
  · intro m' agree
    rw [← bound.module] at agree
    exact attempt_congr agree

/-- A module whose functions panic, except in the first step. -/
def onceOnly : Module where
  location := "mem://once"
  resolve _ := some fun input =>
    match input.get? stepField with
    | some (.int 1) => .ok .null
    | _ => .error (.panicked none)

/-- The declared output is the step field; the second step panics, and the configuration is
replaced after it. -/
theorem run_invariant_of_panic :
    let e := stepper.runCalls
      (create onceOnly ⟨[(stepField, {})], by decide⟩ .single .empty)
      [.step, .step, .setConfig .single]
    e.stepCount = 1 ∧ e.error.isSome = true ∧
      (∃ outputs, e.outputs = some outputs ∧ outputs.get? stepField = some (.nat 1)) ∧
      ({ e with module := onceOnly } : Engine).attempt = e.attempt ∧
      ∃ fault, e.Blames fault ∧ e.step = { e with error := some fault.message } := by
  intro e
  obtain ⟨count, shown, failed, agreed, unchanged⟩ := run_invariant onceOnly
    ⟨[(stepField, {})], by decide⟩ .single .empty [.step, .step, .setConfig .single]
  refine ⟨count, failed.mpr ?_, ?_, agreed onceOnly ?_, unchanged rfl⟩
  · exact ⟨[.step], [.setConfig .single], rfl, rfl, by simp [EngineCall.decides]⟩
  · exact ⟨_, rfl, (shown _ rfl).2⟩
  · exact fun name => .some fun r _ => rfl

end Engine

end Cadence
