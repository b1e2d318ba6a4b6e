import Cadence.Proofs.Engine.Resumption

/-!
# What steps start from

A run of iterations looks at no input. Each of its steps starts from the input that the step before
it has left, and the step that fails has started from one as well.

* `Stepper.startingInputs`: the inputs that the steps of a run start from;
* `Stepper.mem_startingInputs_iff`: an input for every step that no failure comes before;
* **`Stepper.engine_startingInputs`**: a run takes as many steps as it has starting inputs;
* `Engine.error_iterate_ne`: the steps of engines never fail with the message of a validation.
-/

namespace Cadence

variable {ε : Type}

namespace Stepper

/-- The inputs that the steps of a run start from; the last step may be the one that fails. -/
def startingInputs (S : Stepper ε) : Nat → ε → List Record
  | 0, _ => []
  | n + 1, e =>
    let input := (S.snapshot e).input
    match historyEntry input (S.snapshot (S.step e)) with
    | none => [input]
    | some _ => input :: startingInputs S n (S.step e)

variable {S : Stepper ε} {e : ε} {n : Nat}

theorem error_of_historyEntry {input : Record} {s : Snapshot} {step : IterationStep}
    (entry : historyEntry input s = some step) : s.error = none := by
  unfold historyEntry at entry
  split at entry
  · next done _ => exact done
  · cases entry

theorem startingInputs_of_error (failed : (S.snapshot (S.step e)).error ≠ none) (n : Nat) :
    S.startingInputs (n + 1) e = [(S.snapshot e).input] := by
  obtain ⟨text, eq⟩ := Option.ne_none_iff_exists'.mp failed
  simp [startingInputs, historyEntry, eq]

theorem startingInputs_of_sound (sound : S.Sound) (done : (S.snapshot (S.step e)).error = none)
    (n : Nat) :
    S.startingInputs (n + 1) e = (S.snapshot e).input :: S.startingInputs n (S.step e) := by
  obtain ⟨outputs, eq⟩ := Option.isSome_iff_exists.mp (sound e done).2
  simp [startingInputs, historyEntry, done, eq]

/-- **A run takes as many steps as it has starting inputs.** -/
theorem engine_startingInputs (sound : S.Sound) (n : Nat) (e : ε) :
    (S.runIterations n e).2 = S.step^[(S.startingInputs n e).length] e := by
  induction n generalizing e with
  | zero => rfl
  | succ n ih =>
    obtain ⟨failed, ran⟩ | ⟨done, outputs, -, ran⟩ := runIterations_cases sound e
    · rw [ran, startingInputs_of_error failed]
      rfl
    · rw [ran, startingInputs_of_sound sound done, ih]
      rfl

theorem mem_startingInputs_iff (sound : S.Sound) {input : Record} :
    input ∈ S.startingInputs n e ↔
      ∃ j < n, S.Unfailing j e ∧ input = (S.snapshot (S.step^[j] e)).input := by
  induction n generalizing e with
  | zero => exact iff_of_false List.not_mem_nil fun ⟨_, lt, _⟩ => Nat.not_lt_zero _ lt
  | succ n ih =>
    by_cases done : (S.snapshot (S.step e)).error = none
    · rw [startingInputs_of_sound sound done, List.mem_cons, ih]
      constructor
      · rintro (first | ⟨j, lt, good, eq⟩)
        · exact ⟨0, Nat.succ_pos n, unfailing_zero S e, first⟩
        · exact ⟨j + 1, Nat.succ_lt_succ lt, unfailing_succ_iff.mpr ⟨done, good⟩, eq⟩
      · rintro ⟨j, lt, good, eq⟩
        cases j with
        | zero => exact .inl eq
        | succ j => exact .inr ⟨j, Nat.lt_of_succ_lt_succ lt, (unfailing_succ_iff.mp good).2, eq⟩
    · rw [startingInputs_of_error done, List.mem_singleton]
      constructor
      · intro first
        exact ⟨0, Nat.succ_pos n, unfailing_zero S e, first⟩
      · rintro ⟨j, lt, good, eq⟩
        cases j with
        | zero => exact eq
        | succ j => exact absurd (unfailing_succ_iff.mp good).1 done

end Stepper

/-! ## The texts of faults -/

theorem toList_append_of_cons {s t : String} {c : Char} {cs : List Char} (h : s.toList = c :: cs) :
    (s ++ t).toList = c :: (cs ++ t.toList) := by
  rw [String.toList_append, h, List.cons_append]

namespace Engine

variable {e : Engine} {errors : List FieldError}

theorem Blames.message_ne {fault : Fault} (h : e.Blames fault) (faulty : errors ≠ []) :
    fault.message ≠ validationMessage errors := by
  obtain ⟨error, errors, rfl⟩ := List.exists_cons_of_ne_nil faulty
  have input : "Input validation errors:".toList = 'I' :: "nput validation errors:".toList := rfl
  obtain ⟨rest, valid⟩ : ∃ rest, (validationMessage (error :: errors)).toList = 'I' :: rest :=
    ⟨_, toList_append_of_cons input⟩
  intro same
  have texts := congrArg String.toList same
  rw [valid] at texts
  cases h with
  | missing =>
    have output : "Output '".toList = 'O' :: "utput '".toList := rfl
    exact absurd ((toList_append_of_cons (toList_append_of_cons output)).symm.trans texts) (by simp)
  | failed =>
    have execution : "Execution failed for '".toList = 'E' :: "xecution failed for '".toList := rfl
    exact absurd ((toList_append_of_cons (toList_append_of_cons
      (toList_append_of_cons execution))).symm.trans texts) (by simp)

/-- **No step fails with the message of a validation.** -/
theorem error_iterate_ne (fresh : e.error = none) (faulty : errors ≠ []) (j : Nat) :
    (Engine.step^[j] e).error ≠ some (validationMessage errors) := by
  cases j with
  | zero =>
    show e.error ≠ _
    rw [fresh]
    nofun
  | succ j =>
    rw [Function.iterate_succ_apply']
    cases succeeds : (Engine.step^[j] e).succeeds with
    | true =>
      rw [(step_of_succeeds succeeds).2.1]
      nofun
    | false =>
      obtain ⟨fault, blames, eq⟩ := step_of_fails succeeds
      rw [eq]
      exact fun same => blames.message_ne faulty (Option.some.inj same)

end Engine

end Cadence
