import Cadence.Engine.Stepper
import Cadence.Proofs.Engine.Attempt
import Mathlib.Logic.Function.Iterate

/-!
# Runs of iterations

A run of iterations ends at the first step that fails. Its history has an entry for every step
before, and the failure is left in the engine.

* `Stepper.Sound`: what a step without an error does;
* `Stepper.Unfailing`: a number of steps without an error;
* `Stepper.Surfaces`: the snapshots that a run gives to see, one for each of its steps;
* **`Stepper.surfaces_of_error`**, **`Stepper.Surfaces.cons`**: a run ends at a failure, and goes on
  behind any other step;
* `Engine.stepper_sound`: the steps of engines are sound.
-/

namespace Cadence

variable {ε : Type}

namespace Stepper

/-- A step without an error counts, and it has outputs. -/
def Sound (S : Stepper ε) : Prop :=
  ∀ e, (S.snapshot (S.step e)).error = none →
    (S.snapshot (S.step e)).stepCount = (S.snapshot e).stepCount + 1 ∧
      (S.snapshot (S.step e)).outputs.isSome = true

/-- The next `n` steps have no errors. -/
def Unfailing (S : Stepper ε) (n : Nat) (e : ε) : Prop :=
  ∀ i < n, (S.snapshot (S.step^[i + 1] e)).error = none

variable {S : Stepper ε} {e : ε} {n : Nat}

theorem unfailing_zero (S : Stepper ε) (e : ε) : S.Unfailing 0 e := nofun

theorem unfailing_succ_iff :
    S.Unfailing (n + 1) e ↔ (S.snapshot (S.step e)).error = none ∧ S.Unfailing n (S.step e) := by
  constructor
  · intro h
    exact ⟨h 0 (Nat.zero_lt_succ n), fun i lt => h (i + 1) (Nat.succ_lt_succ lt)⟩
  · rintro ⟨first, rest⟩ i lt
    cases i with
    | zero => exact first
    | succ i => exact rest i (Nat.lt_of_succ_lt_succ lt)

theorem runIterations_of_error (failed : (S.snapshot (S.step e)).error ≠ none) (n : Nat) :
    S.runIterations (n + 1) e = ([], S.step e) := by
  obtain ⟨text, eq⟩ := Option.ne_none_iff_exists'.mp failed
  unfold runIterations historyEntry
  simp [eq]

theorem runIterations_of_sound (sound : S.Sound) (done : (S.snapshot (S.step e)).error = none) :
    ∃ outputs, (S.snapshot (S.step e)).outputs = some outputs ∧
      ∀ n, S.runIterations (n + 1) e =
        (⟨(S.snapshot e).input, outputs⟩ :: (S.runIterations n (S.step e)).1,
          (S.runIterations n (S.step e)).2) := by
  obtain ⟨outputs, eq⟩ := Option.isSome_iff_exists.mp (sound e done).2
  refine ⟨outputs, eq, fun n => ?_⟩
  rw [runIterations]
  simp [historyEntry, done, eq]

/-- What a run of iterations gives to see: a snapshot without an error for every entry of its
history, with the outputs of the entry, and behind them the snapshot of the step that failed, if one
did. -/
def Surfaces (S : Stepper ε) (n : Nat) (e : ε) (shown : List Snapshot) : Prop :=
  ∃ good, good.map (·.outputs) = (S.runIterations n e).1.map (some ·.outputs) ∧
    (∀ b ∈ good, b.error = none) ∧
    (S.Unfailing n e → shown = good) ∧
    (¬ S.Unfailing n e → shown = good ++ [S.snapshot (S.runIterations n e).2] ∧
      (S.snapshot (S.runIterations n e).2).error.isSome = true)

theorem surfaces_zero (S : Stepper ε) (e : ε) : S.Surfaces 0 e [] :=
  ⟨[], rfl, nofun, fun _ => rfl, fun failed => absurd (unfailing_zero S e) failed⟩

theorem surfaces_of_error (failed : (S.snapshot (S.step e)).error ≠ none) (n : Nat) :
    S.Surfaces (n + 1) e [S.snapshot (S.step e)] := by
  rw [Surfaces, runIterations_of_error failed]
  refine ⟨[], rfl, nofun, fun all => ?_, fun _ => ⟨rfl, Option.isSome_iff_ne_none.mpr failed⟩⟩
  exact absurd (unfailing_succ_iff.mp all).1 failed

theorem Surfaces.cons (sound : S.Sound) (done : (S.snapshot (S.step e)).error = none)
    {shown : List Snapshot} (h : S.Surfaces n (S.step e) shown) :
    S.Surfaces (n + 1) e (S.snapshot (S.step e) :: shown) := by
  obtain ⟨outputs, shown, ran⟩ := runIterations_of_sound sound done
  obtain ⟨good, entries, errorFree, whole, broken⟩ := h
  rw [Surfaces, ran, unfailing_succ_iff]
  refine ⟨S.snapshot (S.step e) :: good, ?_, List.forall_mem_cons.mpr ⟨done, errorFree⟩, ?_, ?_⟩
  · rw [List.map_cons, List.map_cons, shown, entries]
  · rintro ⟨-, rest⟩
    rw [whole rest]
  · intro failed
    obtain ⟨eq, error⟩ := broken fun rest => failed ⟨done, rest⟩
    exact ⟨congrArg _ eq, error⟩

end Stepper

theorem Engine.stepper_sound : Engine.stepper.Sound := by
  intro e done
  show e.step.stepCount = e.stepCount + 1 ∧ e.step.outputs.isSome = true
  cases succeeds : e.succeeds with
  | true =>
    obtain ⟨count, -, outputs, eq, -⟩ := step_of_succeeds succeeds
    exact ⟨count, by rw [eq]; rfl⟩
  | false =>
    obtain ⟨fault, -, eq⟩ := step_of_fails succeeds
    have error : e.step.error = none := done
    rw [eq] at error
    cases error

end Cadence
