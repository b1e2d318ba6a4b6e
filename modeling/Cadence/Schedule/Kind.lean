import Cadence.Json.Decoder

/-!
# Kinds of schedulers

* `SchedulerKind`: a timer for each task, or a common frame clock;
* `SchedulerKind.ofText?`, `SchedulerKind.decoder`: the kind of a name.
-/

namespace Cadence

/-- Which scheduler runs playback. -/
inductive SchedulerKind
  | timer
  | frame
deriving DecidableEq, Repr

namespace SchedulerKind

/-- The name of a kind. -/
def name : SchedulerKind → String
  | .timer => "timer"
  | .frame => "frame"

/-- The kind of a name. -/
def ofName? (s : String) : Option SchedulerKind :=
  if s = "timer" then some .timer else if s = "frame" then some .frame else none

/-- The kind of a name, or what is wrong with the name. -/
def ofText (s : String) : Except String SchedulerKind :=
  match ofName? s with
  | some k => .ok k
  | none => .error ("unknown scheduler '" ++ s ++ "' (expected timer or frame)")

/-- Read a kind. -/
def decoder : Decoder SchedulerKind := fun depth d => (Decoder.variant depth d).bind ofName?

end SchedulerKind

end Cadence
