import Cadence.Proofs.Engine.Starts
import Cadence.Proofs.Engine.Trials
import Cadence.Proofs.Worker.Mirror
import Cadence.Worker.Hosted

/-!
# Engines elsewhere

To those who play it, an engine in a child process is as good as one here, as long as what travels
is read back as what was sent.

* `Engine.Travels`: the steps among the first attempts have replies that can be read back;
* `HostedEngine.Follows`: an engine, wherever it is, that shows what an engine here shows;
* **`HostedEngine.Follows.playsOut`**: it is played as the engine here;
* `HostedEngine.Follows.step`, **`HostedEngine.Follows.runIterations`**: it is stepped as the engine
  here, where no input is looked at.
-/

namespace Cadence

/-- The steps among the first `n` attempts have replies that are carried in frames and read back. -/
def Engine.Travels (wire : Wire) (validator : Option (Record → List FieldError)) (n : Nat)
    (e : Engine) : Prop :=
  ∀ j < n, (∀ i < j, (Engine.stepper.trial validator e i).isError = false) →
    Stepper.objections validator (Engine.step^[j] e).input = [] →
      EngineCall.Decodes (Engine.step^[j] e) .step ∧
        EngineCall.Framed wire (Engine.step^[j] e) .step

variable {wire : Wire} {source : ModuleCache.Source}
  {validator : Option (Record → List FieldError)} {limit : Option Nat} {n : Nat} {e : Engine}
  {x : HostedEngine} {told : List Snapshot}

theorem Engine.Travels.step (h : e.Travels wire validator (n + 1))
    (good : (Engine.stepper.trial validator e 0).isError = false) :
    e.step.Travels wire validator n := by
  intro j lt earlier
  refine h (j + 1) (Nat.succ_lt_succ lt) fun i le => ?_
  cases i with
  | zero => exact good
  | succ i => exact earlier i (Nat.lt_of_succ_lt_succ le)

/-- What travels where no input is looked at travels where every input is. -/
theorem Engine.Travels.checked (h : e.Travels wire none n)
    (validator : Option (Record → List FieldError)) : e.Travels wire validator n := by
  intro j lt earlier _
  refine h j lt (fun i le => ?_) rfl
  have done := earlier i le
  rw [Stepper.trial, Stepper.attempt_eq_of_done done] at done
  exact done

namespace HostedEngine

/-- The engine shows what an engine here shows, for `n` attempts to come. -/
inductive Follows (wire : Wire) (source : ModuleCache.Source)
    (validator : Option (Record → List FieldError)) (n : Nat) : HostedEngine → Engine → Prop
  | here (e : Engine) : Follows wire source validator n (.inProcess e) e
  | there {p : Proxy WorkerProcess} {e : Engine}
      (mirrors : (WorkerProcess.link wire source).Mirrors p e)
      (travels : e.Travels wire validator n) : Follows wire source validator n (.inWorker p) e

theorem Follows.snapshot_eq (h : Follows wire source validator n x e) :
    (stepper wire source).snapshot x = Engine.stepper.snapshot e := by
  cases h with
  | here => rfl
  | there mirrors => exact mirrors.seen

/-- **An attempt elsewhere** is told as the attempt here. -/
theorem Follows.attempt (h : Follows wire source validator (n + 1) x e) :
    ((stepper wire source).attempt validator x).2 = (Engine.stepper.attempt validator e).2 ∧
      ((Engine.stepper.attempt validator e).2.isError = false →
        Follows wire source validator n ((stepper wire source).attempt validator x).1
          (Engine.stepper.attempt validator e).1) := by
  have shown := h.snapshot_eq
  cases passes : Stepper.objections validator e.snapshot.input with
  | nil =>
    have here := Stepper.attempt_of_passes (S := Engine.stepper) passes
    rw [here, Stepper.attempt_of_passes (by rw [shown]; exact passes)]
    cases h with
    | here => exact ⟨rfl, fun _ => .here _⟩
    | there mirrors travels =>
      have first := travels 0 (Nat.succ_pos n) nofun passes
      have next := mirrors.step (WorkerProcess.passes_framed first) first.1
      refine ⟨next.seen, fun good => .there next (travels.step ?_)⟩
      rw [← here] at good
      exact good
  | cons error errors =>
    rw [Stepper.attempt_of_refused (S := Engine.stepper) passes,
      Stepper.attempt_of_refused (by rw [shown]; exact passes), shown]
    exact ⟨rfl, nofun⟩

/-- Attempts in a row are told alike. -/
theorem Follows.plays (plays : Engine.stepper.Plays validator limit e told)
    (h : Follows wire source validator n x e) (few : told.length ≤ n) :
    (stepper wire source).Plays validator limit x told := by
  induction plays generalizing n x with
  | @last e last =>
    obtain ⟨n, rfl⟩ := Nat.exists_eq_add_of_le' few
    obtain ⟨same, -⟩ := h.attempt
    rw [← same] at last ⊢
    exact .last last
  | @more e told more rest ih =>
    obtain ⟨n, rfl⟩ := Nat.exists_eq_add_of_le' (Nat.le_trans (Nat.succ_pos _) few)
    obtain ⟨same, next⟩ := h.attempt
    have good : (Engine.stepper.attempt validator e).2.isError = false :=
      (Bool.or_eq_false_iff.mp more).1
    have rest := ih (next good) (Nat.le_of_succ_le_succ few)
    rw [← same] at more ⊢
    exact .more more rest

/-- **An engine elsewhere is played as the engine here.** -/
theorem Follows.playsOut (h : Follows wire source validator n x e)
    (plays : Engine.stepper.PlaysOut validator limit e told) (few : told.length ≤ n) :
    (stepper wire source).PlaysOut validator limit x told := by
  unfold Stepper.PlaysOut at plays ⊢
  rw [h.snapshot_eq]
  split at plays
  · next reached => rwa [if_pos reached]
  · next below =>
    rw [if_neg below]
    exact h.plays plays few

/-! ## Steps back to back -/

theorem Follows.step (h : Follows wire source none (n + 1) x e) :
    (stepper wire source).snapshot ((stepper wire source).step x) = e.step.snapshot ∧
      (e.step.error = none → Follows wire source none n ((stepper wire source).step x) e.step) := by
  obtain ⟨same, next⟩ := h.attempt
  refine ⟨same, fun done => next ?_⟩
  show e.step.error.isSome = false
  rw [done]
  rfl

/-- **A run of steps elsewhere** has the history of the run here, ends with the same snapshot, and
its steps start from the same inputs. -/
theorem Follows.runIterations (h : Follows wire source none n x e) :
    ((stepper wire source).runIterations n x).1 = (Engine.stepper.runIterations n e).1 ∧
      (stepper wire source).snapshot ((stepper wire source).runIterations n x).2 =
        (Engine.stepper.runIterations n e).2.snapshot ∧
      (stepper wire source).startingInputs n x = Engine.stepper.startingInputs n e := by
  induction n generalizing x e with
  | zero => exact ⟨rfl, h.snapshot_eq, rfl⟩
  | succ n ih =>
    obtain ⟨same, next⟩ := h.step
    rw [Stepper.runIterations, Stepper.runIterations, Stepper.startingInputs,
      Stepper.startingInputs]
    dsimp only
    rw [h.snapshot_eq, same]
    cases entry : Stepper.historyEntry (Engine.stepper.snapshot e).input
        (Engine.stepper.snapshot (Engine.stepper.step e)) with
    | none =>
      rw [show Stepper.historyEntry _ e.step.snapshot = none from entry]
      exact ⟨rfl, same, rfl⟩
    | some step =>
      rw [show Stepper.historyEntry _ e.step.snapshot = some step from entry]
      obtain ⟨history, last, starts⟩ := ih (next (Stepper.error_of_historyEntry entry))
      exact ⟨congrArg (step :: ·) history, last, congrArg (_ :: ·) starts⟩

end HostedEngine

end Cadence
