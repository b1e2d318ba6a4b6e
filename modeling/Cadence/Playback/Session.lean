import Cadence.Engine.Stepper
import Cadence.Form.Check
import Cadence.Playback.Listener

/-!
# Sessions

A session plays an engine: while it is playing, one tick is armed with a scheduler, and a tick that
has stepped the engine arms the next one. The engine is used by one job at a time, in the order in
which jobs come. A session is changed by actions alone, so that its runs are lists of actions.

* `Session`: playback, the engine with its queue of jobs, the listeners, and a log of what happened;
* `Session.playLimited`, `Session.pause`, `Session.setInterval`, `Session.subscribe`: what callers
  and listeners do at once;
* `Session.publish`: broadcast a snapshot;
* `Session.Section`, `Session.Turn`, `Session.turn`: actions in their critical sections, the first
  of which is taken at once while the others lie ahead;
* `Session.enter`, `Session.begin`, `Session.complete`: a job joins the queue, starts at its head,
  and ends the step of the engine that it started;
* `Session.fire`: the scheduler starts a tick;
* `Session.Action`, `Session.act`, `Session.run`.
-/

namespace Cadence

/-- A tick that the scheduler has not started. -/
structure Tick where
  handle : Nat
  generation : Nat
deriving DecidableEq, Repr

/-- What callers do with the engine. -/
inductive Order (ε : Type)
  | step
  | setInput (input : Record)
  | init (engine : ε) (input : Option Record)
  | destroy

/-- What a job does with the engine: the step of a tick, or what a caller has ordered. -/
inductive JobKind (ε : Type)
  | tick (generation : Nat)
  | order (order : Order ε)

/-- A job in the queue for the engine. -/
structure Job (ε : Type) where
  id : Nat
  kind : JobKind ε

/-- What happens in a session. -/
inductive SessionEvent (ε : Type)
  | armed (tick : Tick) (delay : Nat)
  | cancelled (handle : Nat)
  | granted (job : Nat)
  | stepping (job : Job ε) (engine : ε)
  | shutDown (engine : ε)
  | broadcast (snapshot : Snapshot)
  | heard (subscriber : Nat) (name : String) (playing : Bool) (snapshot : Snapshot)
  | finished (job : Nat) (result : Option Snapshot)

/-- What a listener hears in an event. -/
def SessionEvent.heard? {ε : Type} : SessionEvent ε → Option Snapshot
  | .heard _ _ _ snapshot => some snapshot
  | _ => none

/-- The job that ends in an event. -/
def SessionEvent.finished? {ε : Type} : SessionEvent ε → Option Nat
  | .finished job _ => some job
  | _ => none

/-- The state of a session. The head of the queue holds the engine, and `stepping` says that it is
in a step of the engine. `armed` lists the ticks that the scheduler has not started; a scheduler
that ignores cancellations keeps them. The log has the latest event in front. -/
structure Session (ε : Type) where
  playing : Bool := false
  interval : Nat := ExecutionConfig.defaultInterval
  pending : Option Nat := none
  generation : Nat := 0
  limit : Option Nat := none
  last : Snapshot := {}
  engine : Option ε := none
  queue : List (Job ε) := []
  stepping : Bool := false
  nextJob : Nat := 0
  armed : List Tick := []
  nextHandle : Nat := 1
  cancels : Bool := true
  validator : Option (Record → List FieldError) := none
  subscribers : List Subscriber := []
  nextSubscriber : Nat := 1
  names : List (String × Nat) := []
  log : List (SessionEvent ε) := []

namespace Session

variable {ε : Type}

/-- Write down an event. -/
def note (s : Session ε) (e : SessionEvent ε) : Session ε := { s with log := e :: s.log }

/-- The snapshots that listeners have heard, as they came. -/
def heard (s : Session ε) : List Snapshot := s.log.reverse.filterMap SessionEvent.heard?

/-! ## Playback -/

/-- Arm a tick of a new generation, which is the pending one from now on. -/
def arm (s : Session ε) : Session ε :=
  let tick : Tick := ⟨s.nextHandle, s.generation + 1⟩
  { s with
    generation := s.generation + 1
    nextHandle := s.nextHandle + 1
    armed := s.armed ++ [tick]
    pending := some tick.handle }.note (.armed tick s.interval)

/-- Cancel a tick. -/
def cancel (s : Session ε) (handle : Nat) : Session ε :=
  { s with armed := if s.cancels then s.armed.filter (·.handle ≠ handle) else s.armed }.note
    (.cancelled handle)

/-- The step count has reached a limit. -/
def atLimit (count : Nat) (limit : Option Nat) : Bool := limit.any (· ≤ count)

/-- Start to play, unless the session is playing or has reached the limit already. -/
def playLimited (s : Session ε) (interval : Nat) (limit : Option Nat) : Session ε :=
  if s.playing || atLimit s.last.stepCount limit then s
  else { s with playing := true, interval, limit }.arm

/-- Start to play without a limit. -/
def play (s : Session ε) (interval : Nat) : Session ε := s.playLimited interval none

/-- Start to play as a configuration says. -/
def playConfig (s : Session ε) (c : ExecutionConfig) : Session ε :=
  s.playLimited c.playbackInterval c.limit

/-- Stop playing and cancel the pending tick. -/
def pause (s : Session ε) : Session ε :=
  match s.pending with
  | none => { s with playing := false }
  | some handle => { s with playing := false, pending := none }.cancel handle

/-- Change the interval. While playing this is a pause and a new start. -/
def setInterval (s : Session ε) (interval : Nat) : Session ε :=
  if s.playing then s.pause.playLimited interval s.limit else { s with interval }

/-- A tick of this generation may act. -/
def isCurrent (s : Session ε) (generation : Nat) : Bool :=
  s.playing && s.generation == generation

/-! ## Listeners -/

/-- Register a listener. Its name stands for it from now on. -/
def subscribe (s : Session ε) (name : String) (listener : Listener) : Session ε :=
  { s with
    subscribers := s.subscribers ++ [⟨s.nextSubscriber, name, listener, 0⟩]
    names := (name, s.nextSubscriber) :: s.names.filter (·.1 ≠ name)
    nextSubscriber := s.nextSubscriber + 1 }

/-- Remove the listener that a name stands for. -/
def unsubscribe (s : Session ε) (name : String) : Session ε :=
  match Entries.get? name s.names with
  | none => s
  | some id =>
    { s with
      subscribers := s.subscribers.filter (·.id ≠ id)
      names := s.names.filter (·.1 ≠ name) }

/-- Do what a listener asks for, up to a panic. -/
def react (s : Session ε) : List Reaction → Session ε
  | [] => s
  | .panic :: _ => s
  | .pause :: r => react s.pause r
  | .play interval limit :: r => react (s.playLimited interval limit) r
  | .setInterval interval :: r => react (s.setInterval interval) r
  | .subscribe name listener :: r => react (s.subscribe name listener) r
  | .unsubscribe name :: r => react (s.unsubscribe name) r

/-- Count a call of a subscriber that is still registered. -/
def countCall (s : Session ε) (id : Nat) : Session ε :=
  { s with
    subscribers := s.subscribers.map fun u =>
      if u.id = id then { u with calls := u.calls + 1 } else u }

/-- Call one subscriber. -/
def deliver (snapshot : Snapshot) (s : Session ε) (u : Subscriber) : Session ε :=
  let s := s.note (.heard u.id u.name s.playing snapshot)
  (s.countCall u.id).react (u.listener u.calls snapshot)

/-- Keep a snapshot as the last one and call everyone who is registered now. -/
def publish (s : Session ε) (snapshot : Snapshot) : Session ε :=
  s.subscribers.foldl (deliver snapshot) ({ s with last := snapshot }.note (.broadcast snapshot))

/-! ## Critical sections -/

/-- Join the queue. -/
def enqueue (s : Session ε) (kind : JobKind ε) : Session ε :=
  { s with queue := s.queue ++ [⟨s.nextJob, kind⟩], nextJob := s.nextJob + 1 }

/-- The head of the queue leaves the engine to the next job. -/
def release (s : Session ε) : Session ε :=
  let s := { s with queue := s.queue.tail, stepping := false }
  match s.queue with
  | [] => s
  | job :: _ => s.note (.granted job.id)

/-- A tick that may still act stops playback after an error or at the limit, and arms the next tick
otherwise. -/
def commit (s : Session ε) (generation : Nat) (snapshot : Snapshot) : Session ε :=
  if s.isCurrent generation then
    if snapshot.isError || atLimit snapshot.stepCount s.limit then
      { s with playing := false, pending := none }
    else s.arm
  else s

/-- Remove all listeners. -/
def dismiss (s : Session ε) : Session ε := { s with subscribers := [] }

/-- What an action goes through behind its first critical section: it joins the queue for the
engine, or it has left the engine. The last thing is to return. -/
inductive Section (ε : Type)
  | enqueue (kind : JobKind ε)
  | commit (generation : Nat) (snapshot : Snapshot)
  | publish (snapshot : Snapshot)
  | dismiss
  | finish (job : Nat) (result : Option Snapshot)

/-- Pass a critical section. -/
def pass (s : Session ε) : Section ε → Session ε
  | .enqueue kind => s.enqueue kind
  | .commit generation snapshot => s.commit generation snapshot
  | .publish snapshot => s.publish snapshot
  | .dismiss => s.dismiss
  | .finish job result => s.note (.finished job result)

/-- The session behind a critical section of an action, and what the action has ahead. -/
structure Turn (ε : Type) where
  session : Session ε
  ahead : List (Section ε) := []

/-- Pass all that is ahead in a row. -/
def Turn.through (t : Turn ε) : Session ε := t.ahead.foldl pass t.session

/-! ## Jobs -/

/-- A caller comes with an order. Playback stops first if the engine is about to be replaced or
removed. -/
def approach (s : Session ε) (o : Order ε) : Turn ε :=
  match o with
  | .init .. | .destroy => ⟨s.pause, [.enqueue (.order o)]⟩
  | .step | .setInput _ => ⟨s.enqueue (.order o), []⟩

/-- The scheduler starts a tick. It is going to join the queue if it may act. -/
def awaken (s : Session ε) (handle : Nat) : Turn ε :=
  match s.armed.find? (·.handle = handle) with
  | none => ⟨s, []⟩
  | some tick =>
    let s := { s with armed := s.armed.filter (·.handle ≠ handle) }
    if s.isCurrent tick.generation then ⟨s, [.enqueue (.tick tick.generation)]⟩ else ⟨s, []⟩

/-- What a job that was to step the engine does with the snapshot when it has left the engine. -/
def closing (job : Job ε) (snapshot : Snapshot) : List (Section ε) :=
  match job.kind with
  | .tick generation =>
    [.commit generation snapshot, .publish snapshot, .finish job.id (some snapshot)]
  | .order _ => [.publish snapshot, .finish job.id (some snapshot)]

/-- A job that was to step the engine gives it up with a snapshot. -/
def quit (s : Session ε) (job : Job ε) (snapshot : Snapshot) : Turn ε :=
  ⟨s.release, closing job snapshot⟩

/-- A job that was to step the engine ends with a snapshot. -/
def conclude (s : Session ε) (job : Job ε) (snapshot : Snapshot) : Session ε :=
  (s.quit job snapshot).through

/-- What the validator has against an input. -/
def objections (s : Session ε) (input : Record) : List FieldError :=
  match s.validator with
  | none => []
  | some check => check input

/-- Begin a step. There may be no engine, or an input that does not pass. -/
def beginStep (S : Stepper ε) (s : Session ε) (job : Job ε) : Turn ε :=
  match s.engine with
  | none => s.quit job (s.last.withError "engine not initialized")
  | some e =>
    match s.objections (S.snapshot e).input with
    | [] => ⟨{ s with stepping := true }.note (.stepping job e), []⟩
    | errors => s.quit job ((S.snapshot e).withError (validationMessage errors))

/-- Remove the engine and shut it down. -/
def shutEngine (S : Stepper ε) (s : Session ε) : Session ε :=
  match s.engine with
  | none => s
  | some e => { s with engine := none }.note (.shutDown (S.shutdown e))

/-- Replace the input, if there is an engine. -/
def runSetInput (S : Stepper ε) (s : Session ε) (job : Job ε) (input : Record) : Turn ε :=
  match s.engine with
  | none => ⟨s.release, [.finish job.id none]⟩
  | some e =>
    let e := S.setInput e input
    ⟨{ s with engine := some e }.release, [.publish (S.snapshot e), .finish job.id none]⟩

/-- Replace the engine. -/
def runInit (S : Stepper ε) (s : Session ε) (job : Job ε) (e : ε) (input : Option Record) :
    Turn ε :=
  let e := match input with
    | none => e
    | some input => S.setInput e input
  let s := { s.shutEngine S with engine := some e }
  ⟨s.release, [.publish (S.snapshot e), .finish job.id none]⟩

/-- Remove the engine, and then all listeners. -/
def runDestroy (S : Stepper ε) (s : Session ε) (job : Job ε) : Turn ε :=
  ⟨(s.shutEngine S).release, [.dismiss, .finish job.id none]⟩

/-- The head of the queue goes to work, up to where it leaves the engine. A step takes until it is
completed; everything else is done at once. -/
def takeUp (S : Stepper ε) (s : Session ε) : Turn ε :=
  match s.queue with
  | [] => ⟨s, []⟩
  | job :: _ =>
    if s.stepping then ⟨s, []⟩
    else
      match job.kind with
      | .tick _ | .order .step => s.beginStep S job
      | .order (.setInput input) => s.runSetInput S job input
      | .order (.init e input) => s.runInit S job e input
      | .order .destroy => s.runDestroy S job

/-- The step of the engine that the head of the queue has begun is over, and the job leaves the
engine. -/
def takeLeave (S : Stepper ε) (s : Session ε) : Turn ε :=
  match s.queue, s.engine with
  | job :: _, some e =>
    let e := S.step e
    if s.stepping then { s with engine := some e }.quit job (S.snapshot e) else ⟨s, []⟩
  | _, _ => ⟨s, []⟩

/-- A caller's job joins the queue. -/
def enter (s : Session ε) (o : Order ε) : Session ε := (s.approach o).through

/-- The scheduler starts a tick, which joins the queue if it may act. -/
def fire (s : Session ε) (handle : Nat) : Session ε := (s.awaken handle).through

/-- The head of the queue goes to work, and ends unless it steps the engine. -/
def begin (S : Stepper ε) (s : Session ε) : Session ε := (s.takeUp S).through

/-- The head of the queue ends its step of the engine, and ends. -/
def complete (S : Stepper ε) (s : Session ε) : Session ε := (s.takeLeave S).through

/-! ## Runs -/

/-- What can happen to a session from outside. -/
inductive Action (ε : Type)
  | play (interval : Nat) (limit : Option Nat)
  | playConfig (config : ExecutionConfig)
  | pause
  | setInterval (interval : Nat)
  | subscribe (name : String) (listener : Listener)
  | unsubscribe (name : String)
  | enter (order : Order ε)
  | fire (handle : Nat)
  | begin
  | complete

/-- The first critical section of an action. -/
def turn (S : Stepper ε) (s : Session ε) : Action ε → Turn ε
  | .play interval limit => ⟨s.playLimited interval limit, []⟩
  | .playConfig config => ⟨s.playConfig config, []⟩
  | .pause => ⟨s.pause, []⟩
  | .setInterval interval => ⟨s.setInterval interval, []⟩
  | .subscribe name listener => ⟨s.subscribe name listener, []⟩
  | .unsubscribe name => ⟨s.unsubscribe name, []⟩
  | .enter order => s.approach order
  | .fire handle => s.awaken handle
  | .begin => s.takeUp S
  | .complete => s.takeLeave S

/-- One action, with all its critical sections in a row. -/
def act (S : Stepper ε) (s : Session ε) (a : Action ε) : Session ε := (s.turn S a).through

/-- Actions in order. -/
def run (S : Stepper ε) (s : Session ε) (actions : List (Action ε)) : Session ε :=
  actions.foldl (act S) s

end Session

end Cadence
