import Cadence.Playback.Session
import Cadence.Proofs.Engine.Iterations

/-!
# Trials

To play an engine is to try one step after the other, until a step fails, an input is refused, or a
limit is reached.

* `Stepper.attempt`, `Stepper.trial`: an attempt to step, and the snapshot that the `j`-th one has
  after as many steps;
* `Stepper.tried`, `Stepper.attempts`: attempts in a row, whatever becomes of them;
* `Stepper.Plays`, `Stepper.PlaysOut`: what playback up to a limit tells of an engine;
* `Stepper.Tries`, `Stepper.exists_tries`: how many attempts there are among the first `n`;
* `Stepper.Tries.snapshot_eq`: the attempts before the last one are the steps with their numbers;
* **`Stepper.Tries.playsOut`**: playback tells the trials in order.
-/

namespace Cadence

variable {ε : Type}

namespace Stepper

/-- What a validator, if there is one, has against an input. -/
def objections (validator : Option (Record → List FieldError)) (input : Record) :
    List FieldError :=
  match validator with
  | none => []
  | some check => check input

/-- An attempt to step: the engine behind it, and the snapshot that is told. An engine whose input
does not pass is not stepped. -/
def attempt (S : Stepper ε) (validator : Option (Record → List FieldError)) (e : ε) :
    ε × Snapshot :=
  match objections validator (S.snapshot e).input with
  | [] => (S.step e, S.snapshot (S.step e))
  | errors => (e, (S.snapshot e).withError (validationMessage errors))

/-- The snapshot of an attempt after `j` steps. -/
def trial (S : Stepper ε) (validator : Option (Record → List FieldError)) (e : ε) (j : Nat) :
    Snapshot :=
  (S.attempt validator (S.step^[j] e)).2

/-- The engine after so many attempts in a row. -/
def tried (S : Stepper ε) (validator : Option (Record → List FieldError)) (e : ε) (k : Nat) : ε :=
  (fun e => (S.attempt validator e).1)^[k] e

/-- The snapshots of so many attempts in a row. -/
def attempts (S : Stepper ε) (validator : Option (Record → List FieldError)) (e : ε) (k : Nat) :
    List Snapshot :=
  (List.range k).map fun j => (S.attempt validator (S.tried validator e j)).2

/-- After this snapshot playback goes no further. -/
def isLast (limit : Option Nat) (s : Snapshot) : Bool :=
  s.isError || Session.atLimit s.stepCount limit

/-- Attempts in a row have these snapshots, and the last of them, and no other, ends playback. -/
inductive Plays (S : Stepper ε) (validator : Option (Record → List FieldError))
    (limit : Option Nat) : ε → List Snapshot → Prop
  | last {e : ε} (last : isLast limit (S.attempt validator e).2 = true) :
      Plays S validator limit e [(S.attempt validator e).2]
  | more {e : ε} {told : List Snapshot} (more : isLast limit (S.attempt validator e).2 = false)
      (rest : Plays S validator limit (S.attempt validator e).1 told) :
      Plays S validator limit e ((S.attempt validator e).2 :: told)

/-- Playback makes no attempt at all if the limit is reached from the start. -/
def PlaysOut (S : Stepper ε) (validator : Option (Record → List FieldError)) (limit : Option Nat)
    (e : ε) (told : List Snapshot) : Prop :=
  if Session.atLimit (S.snapshot e).stepCount limit then told = []
  else Plays S validator limit e told

/-- Of `n` attempts, `k` are made: all of them, or those up to the first that fails. -/
structure Tries (S : Stepper ε) (validator : Option (Record → List FieldError)) (e : ε)
    (n k : Nat) : Prop where
  few : k ≤ n
  good : ∀ j, j + 1 < k → (S.trial validator e j).isError = false
  ends : k = n ∨ ∃ j, k = j + 1 ∧ (S.trial validator e j).isError = true

variable {S : Stepper ε} {validator : Option (Record → List FieldError)} {limit : Option Nat}
  {e : ε} {n k : Nat}

theorem attempt_of_passes (passes : objections validator (S.snapshot e).input = []) :
    S.attempt validator e = (S.step e, S.snapshot (S.step e)) := by
  simp [attempt, passes]

theorem attempt_of_refused {first : FieldError} {others : List FieldError}
    (refused : objections validator (S.snapshot e).input = first :: others) :
    S.attempt validator e =
      (e, (S.snapshot e).withError (validationMessage (first :: others))) := by
  simp [attempt, refused]

theorem attempt_eq_of_done (done : (S.attempt validator e).2.isError = false) :
    S.attempt validator e = (S.step e, S.snapshot (S.step e)) := by
  cases passes : objections validator (S.snapshot e).input with
  | nil => exact attempt_of_passes passes
  | cons first others =>
    rw [attempt_of_refused passes] at done
    cases done

theorem trial_succ (S : Stepper ε) (validator : Option (Record → List FieldError)) (e : ε)
    (j : Nat) : S.trial validator e (j + 1) = S.trial validator (S.step e) j := rfl

theorem tried_succ (S : Stepper ε) (validator : Option (Record → List FieldError)) (e : ε)
    (k : Nat) : S.tried validator e (k + 1) = (S.attempt validator (S.tried validator e k)).1 :=
  Function.iterate_succ_apply' ..

theorem attempts_succ (S : Stepper ε) (validator : Option (Record → List FieldError)) (e : ε)
    (k : Nat) : S.attempts validator e (k + 1) =
      S.attempts validator e k ++ [(S.attempt validator (S.tried validator e k)).2] := by
  simp [attempts, List.range_succ]

theorem exists_tries (S : Stepper ε) (validator : Option (Record → List FieldError)) (e : ε)
    (n : Nat) : ∃ k, S.Tries validator e n k := by
  induction n generalizing e with
  | zero => exact ⟨0, Nat.le_refl 0, nofun, .inl rfl⟩
  | succ n ih =>
    cases failed : (S.trial validator e 0).isError with
    | true =>
      exact ⟨1, Nat.succ_pos n, fun j lt => absurd lt (by omega), .inr ⟨0, rfl, failed⟩⟩
    | false =>
      obtain ⟨k, few, good, ends⟩ := ih (S.step e)
      refine ⟨k + 1, Nat.succ_le_succ few, fun j lt => ?_, ?_⟩
      · cases j with
        | zero => exact failed
        | succ j =>
          rw [trial_succ]
          exact good j (by omega)
      · rcases ends with rfl | ⟨j, rfl, broken⟩
        · exact .inl rfl
        · exact .inr ⟨j + 1, rfl, broken⟩

theorem unfailing_of_good (good : ∀ j < k, (S.trial validator e j).isError = false) :
    S.Unfailing k e := by
  intro j lt
  have done := good j lt
  rw [trial, attempt_eq_of_done done] at done
  rw [Function.iterate_succ_apply']
  simpa [Snapshot.isError] using done

theorem stepCount_of_unfailing (sound : S.Sound) (unfailing : S.Unfailing k e) :
    (S.snapshot (S.step^[k] e)).stepCount = (S.snapshot e).stepCount + k := by
  induction k with
  | zero => rfl
  | succ k ih =>
    have done := unfailing k (Nat.lt_succ_self k)
    rw [Function.iterate_succ_apply'] at done ⊢
    rw [(sound _ done).1, ih fun j lt => unfailing j (Nat.lt_succ_of_lt lt), Nat.add_assoc]

/-- **An attempt that is made and does not fail** is the step with its number. -/
theorem Tries.snapshot_eq (h : S.Tries validator e n k) (sound : S.Sound)
    (fresh : (S.snapshot e).stepCount = 0) {j : Nat} (lt : j < k)
    (done : (S.trial validator e j).isError = false) :
    S.trial validator e j = S.snapshot (S.step^[j + 1] e) ∧
      (S.trial validator e j).stepCount = j + 1 := by
  have shown : S.trial validator e j = S.snapshot (S.step^[j + 1] e) := by
    rw [trial, attempt_eq_of_done done, Function.iterate_succ_apply']
  have good : ∀ i < j + 1, (S.trial validator e i).isError = false := by
    intro i le
    rcases Nat.lt_succ_iff_lt_or_eq.mp le with earlier | rfl
    · exact h.good i (by omega)
    · exact done
  refine ⟨shown, ?_⟩
  rw [shown, stepCount_of_unfailing sound (unfailing_of_good good), fresh, Nat.zero_add]

theorem plays_of_isLast (more : ∀ j < k, isLast limit (S.trial validator e j) = false)
    (last : isLast limit (S.trial validator e k) = true) :
    S.Plays validator limit e ((List.range (k + 1)).map (S.trial validator e)) := by
  induction k generalizing e with
  | zero => exact .last last
  | succ k ih =>
    have first := more 0 (Nat.succ_pos k)
    have done : (S.attempt validator e).2.isError = false := (Bool.or_eq_false_iff.mp first).1
    have rest := ih (e := S.step e) (fun j lt => more (j + 1) (Nat.succ_lt_succ lt)) last
    rw [List.range_succ_eq_map, List.map_cons, List.map_map]
    refine .more first ?_
    rw [attempt_eq_of_done done]
    exact rest

/-- **Playback tells the trials in order**: up to a limit, or without one until an attempt fails. -/
theorem Tries.playsOut (h : S.Tries validator e n k) (sound : S.Sound)
    (fresh : (S.snapshot e).stepCount = 0)
    (limited : limit = some n ∨ limit = none ∧ ∃ j < n, (S.trial validator e j).isError = true) :
    S.PlaysOut validator limit e ((List.range k).map (S.trial validator e)) := by
  unfold PlaysOut
  rw [fresh]
  rcases limited with rfl | ⟨rfl, j, lt, failed⟩
  · cases n with
    | zero =>
      rw [if_pos (by simp [Session.atLimit]), Nat.le_zero.mp h.few]
      rfl
    | succ n =>
      obtain ⟨last, rfl⟩ : ∃ last, k = last + 1 := by
        rcases h.ends with rfl | ⟨j, rfl, -⟩
        · exact ⟨n, rfl⟩
        · exact ⟨j, rfl⟩
      have few := h.few
      rw [if_neg (by simp [Session.atLimit])]
      refine plays_of_isLast (fun j lt => ?_) ?_
      · have good := h.good j (by omega)
        have count := (h.snapshot_eq sound fresh (Nat.lt_succ_of_lt lt) good).2
        simp [isLast, good, Session.atLimit, count]
        omega
      · cases failed : (S.trial validator e last).isError with
        | true => simp [isLast, failed]
        | false =>
          have count := (h.snapshot_eq sound fresh (Nat.lt_succ_self last) failed).2
          have whole : last + 1 = n + 1 := by
            rcases h.ends with whole | ⟨j, eq, broken⟩
            · exact whole
            · cases eq
              exact absurd (failed.symm.trans broken) Bool.false_ne_true
          simp [isLast, Session.atLimit, count, whole]
  · obtain ⟨last, rfl, broken⟩ :
        ∃ last, k = last + 1 ∧ (S.trial validator e last).isError = true := by
      rcases h.ends with rfl | failing
      -- all attempts are made, so the one that fails is the last
      · have latest : j + 1 = k := by
          by_contra ne
          exact absurd ((h.good j (by omega)).symm.trans failed) Bool.false_ne_true
        exact ⟨j, latest.symm, failed⟩
      · exact failing
    rw [if_neg (by simp [Session.atLimit])]
    refine plays_of_isLast (fun j lt => ?_) ?_
    · simp [isLast, Session.atLimit, h.good j (by omega)]
    · simp [isLast, broken]

end Stepper

end Cadence
