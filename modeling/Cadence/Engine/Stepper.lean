import Cadence.Engine.Basic

/-!
# What can be stepped

Playback and runs of steps need little of an engine, and an engine elsewhere can give as much.

* `Stepper`: the operations that callers of an engine use;
* `Engine.stepper`: the engine itself;
* `Stepper.runIterations`: steps up to the first failure, with their history.
-/

namespace Cadence

/-- The operations on something that steps. -/
structure Stepper (ε : Type) where
  snapshot : ε → Snapshot
  setInput : ε → Record → ε
  setConfig : ε → ExecutionConfig → ε
  step : ε → ε
  shutdown : ε → ε

/-- An engine as it is; there is nothing to shut down. -/
def Engine.stepper : Stepper Engine where
  snapshot := Engine.snapshot
  setInput := Engine.setInput
  setConfig := Engine.setConfig
  step := Engine.step
  shutdown := id

namespace Stepper

variable {ε : Type}

/-- The entry that a step adds to a history, unless it failed. -/
def historyEntry (input : Record) (s : Snapshot) : Option IterationStep :=
  match s.error, s.outputs with
  | none, some outputs => some ⟨input, outputs⟩
  | _, _ => none

/-- Run up to `n` steps; the first one that fails ends the run and is not in the history. -/
def runIterations (S : Stepper ε) : Nat → ε → List IterationStep × ε
  | 0, e => ([], e)
  | n + 1, e =>
    let e' := S.step e
    match historyEntry (S.snapshot e).input (S.snapshot e') with
    | none => ([], e')
    | some entry =>
      let rest := runIterations S n e'
      (entry :: rest.1, rest.2)

end Stepper

end Cadence
