import Cadence.Playback.Receiver
import Cadence.Playback.Stage
import Cadence.Schedule.Kind
import Cadence.Word

/-!
# Playing from start to end

* `SchedulerKind.scheduler`: the scheduler of a kind;
* `Stage.heard`: what the listener has heard;
* `Stage.listen`: the receive loop of the main task;
* `Stage.autoplay`: bind an engine, play it with one listener, and remove it.
-/

namespace Cadence

/-- The scheduler of a kind. -/
def SchedulerKind.scheduler (frameRate : Nat) : SchedulerKind → Scheduler
  | .timer => .timer {} true
  | .frame => .frames { frame := frameOfRate frameRate }

namespace Stage

variable {ε : Type}

/-- The snapshots that listeners have heard. -/
def heard (t : Stage ε) : List Snapshot :=
  t.report.filterMap fun r =>
    match r with
    | .heard _ _ _ s => some s
    | .shutDown _ => none

/-- The messages that the listener has sent: the step count of each snapshot that it has heard. -/
def sent (t : Stage ε) : List Nat := t.heard.map (·.stepCount)

/-- The main task receives messages until it leaves its loop. While it waits for one, the loop of
the clock takes turns. All this goes on up to a number of times. -/
def listen (P : Program (Stage ε)) : Nat → Receiver → Loop (Stage ε) → Loop (Stage ε)
  | 0, _, l => l
  | n + 1, r, l =>
    let s := l.program.session
    match r.step l.program.sent s.subscribers.isEmpty s.playing with
    | .left => l
    | r' => listen P n r' (if r' = r then l.turn P else l)

/-- As often as is enough for a limit: a tick takes fewer than eight turns and messages. Without a
limit the step count is a 64-bit word. -/
def timesFor (limit : Option Nat) : Nat := 8 * (limit.getD Word.count + 1)

/-- Bind an engine, play it with one listener, receive its messages until playback has stopped, look
at the last snapshot, and remove the engine. With a limit of zero nothing is played. -/
def autoplay (S : Stepper ε) (scheduler : Scheduler) (validator : Option (Record → List FieldError))
    (interval : Nat) (limit : Option Nat) (e : ε) : Stage ε × Snapshot :=
  let P := program S fun _ => 0
  let start := Stage.start S fun _ => 0
  let l : Loop (Stage ε) := Loop.create scheduler { session := { validator } }
  let l := start l (.act (.subscribe "listener" .plain))
  let l := start l (.order (.init e none))
  let l :=
    if limit = some 0 then l
    else listen P (timesFor limit) (.waiting 0) (start l (.act (.play interval limit)))
  let last := l.program.session.last
  ((start l (.order .destroy)).program, last)

end Stage

end Cadence
