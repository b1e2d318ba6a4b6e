import Cadence.Engine.Stepper

/-!
# Calls of an engine

* `EngineCall`: what a caller does with an engine;
* `Stepper.after`, `Stepper.runCalls`: what one call leaves, and what a run of calls leaves;
* `Stepper.reports`: what the caller sees of a run.
-/

namespace Cadence

/-- What a caller does with an engine. -/
inductive EngineCall
  | step
  | setInput (input : Record)
  | setConfig (config : ExecutionConfig)
  | snapshot

namespace Stepper

variable {ε : Type}

/-- What a call leaves. -/
def after (S : Stepper ε) (e : ε) : EngineCall → ε
  | .step => S.step e
  | .setInput input => S.setInput e input
  | .setConfig config => S.setConfig e config
  | .snapshot => e

/-- What calls leave, made one after the other. -/
def runCalls (S : Stepper ε) (e : ε) (calls : List EngineCall) : ε := calls.foldl S.after e

/-- The snapshots that are seen, one behind each call. -/
def reports (S : Stepper ε) (e : ε) : List EngineCall → List Snapshot
  | [] => []
  | call :: calls => S.snapshot (S.after e call) :: reports S (S.after e call) calls

end Stepper

end Cadence
