import Cadence.CommandLine.Execution
import Cadence.Playback.Weave

/-!
# A run on several threads

While a session plays for a command, the main task of the command receives what its listener sends,
and ticks go on beside it. A tick has left the engine before it decides about playback, and has
armed the next one before it broadcasts.

* `Recital`: a session that plays, and where the main task stands;
* `Recital.opening`: before the first tick;
* `Recital.goOn`: the main task goes on;
* `Recital.Action`, `Recital.act`, `Recital.run`: ticks and the main task in any order;
* `Recital.printed`, `Recital.last?`, `Recital.completion`: what was printed, and how it has ended;
* `Recital.committed`: the snapshots of the ticks that have decided about playback.
-/

namespace Cadence

/-- Where the main task of a run stands: in its receive loop, about to look at the last snapshot,
about to stop playback, about to queue up for the engine, or waiting until its job has removed the
engine and the listeners. -/
inductive MainTask
  | listening (receiver : Receiver)
  | reading
  | removing (last : Snapshot)
  | leaving (last : Snapshot)
  | waiting (last : Snapshot) (job : Nat)

/-- A session that plays for a command, and the main task of the command. -/
structure Recital (ε : Type) where
  weave : Weave ε
  main : MainTask

namespace Recital

variable {ε : Type}

/-- The listener is registered, the engine bound, and playback has started. With a limit of zero it
does not start, and the main task does not listen. -/
def opening (S : Stepper ε) (validator : Option (Record → List FieldError)) (interval : Nat)
    (limit : Option Nat) (e : ε) : Recital ε :=
  let s := ({ validator } : Session ε).run S
    [.subscribe "listener" .plain, .enter (.init e none), .begin]
  if limit = some 0 then { weave := { session := s }, main := .reading }
  else
    { weave := { session := s.playLimited interval limit }, main := .listening (.waiting 0) }

/-- What was printed: the snapshots that the listener has heard. -/
def printed (r : Recital ε) : List Snapshot := r.weave.session.heard

/-- The main task does its next thing. The session is destroyed by a job, which takes its turn at
the engine. -/
def goOn (r : Recital ε) : Recital ε :=
  let s := r.weave.session
  match r.main with
  | .listening receiver =>
    match receiver.step (r.printed.map (·.stepCount)) s.subscribers.isEmpty s.playing with
    | .left => { r with main := .reading }
    | receiver => { r with main := .listening receiver }
  | .reading => { r with main := .removing s.last }
  | .removing last => { weave := { r.weave with session := s.pause }, main := .leaving last }
  | .leaving last =>
    { weave := { r.weave with session := s.enqueue (.order .destroy) }
      main := .waiting last s.nextJob }
  | .waiting .. => r

/-- The last snapshot that the main task has looked at, if the command is over. -/
def last? (r : Recital ε) : Option Snapshot :=
  match r.main with
  | .waiting last job =>
    if r.weave.session.log.any (·.finished? = some job) then some last else none
  | _ => none

/-- How the command has ended, if it is over. -/
def completion (r : Recital ε) : Option Completion :=
  r.last?.map (.ending (r.printed.map Snapshot.toJson))

/-- What can happen: a tick is started, the engine is used, an action passes its next critical
section, or the main task goes on. -/
inductive Action
  | fire (handle : Nat)
  | begin
  | complete
  | pass (thread : Nat)
  | main

/-- What an action does to the session. The main task is apart. -/
def Action.weave? : Action → Option (Weave.Action ε)
  | .fire handle => some (.start (.fire handle))
  | .begin => some (.start .begin)
  | .complete => some (.start .complete)
  | .pass thread => some (.pass thread)
  | .main => none

/-- One action. -/
def act (S : Stepper ε) (r : Recital ε) (a : Action) : Recital ε :=
  match a.weave? with
  | some a => { r with weave := r.weave.act S a }
  | none => r.goOn

/-- Actions in order. -/
def run (S : Stepper ε) (r : Recital ε) (actions : List Action) : Recital ε :=
  actions.foldl (act S) r

/-- The snapshot of a tick that an action lets decide about playback. -/
def commits? (r : Recital ε) : Action → Option Snapshot
  | .pass thread => r.weave.commits? thread
  | _ => none

/-- The snapshots of the ticks that have decided about playback in a run. -/
def committed (S : Stepper ε) (r : Recital ε) : List Action → List Snapshot
  | [] => []
  | a :: actions => (r.commits? a).toList ++ committed S (r.act S a) actions

end Recital

end Cadence
