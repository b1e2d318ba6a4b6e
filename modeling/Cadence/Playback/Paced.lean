import Cadence.Engine.Stepper

/-!
# Engines whose steps take time

* `Paced`: an engine with a name and the time that its steps take;
* `Paced.stepper`: it steps as the engine does.
-/

namespace Cadence

/-- An engine with a name and the time that its steps take, in milliseconds. -/
structure Paced where
  name : String
  delay : Nat := 0
  engine : Engine

namespace Paced

/-- The operations of the engine. -/
def stepper : Stepper Paced where
  snapshot p := p.engine.snapshot
  setInput p input := { p with engine := p.engine.setInput input }
  setConfig p config := { p with engine := p.engine.setConfig config }
  step p := { p with engine := p.engine.step }
  shutdown := id

end Paced

end Cadence
