import Cadence.Schedule.Frame
import Cadence.Schedule.Timer

/-!
# A cooperative loop on a virtual clock

One strand runs at a time and runs until it waits. The clock moves only when nothing can run, and
then to the next alarm. The foreground is a strand of its own: it is looked at when alarms have gone
off, and then only when no other strand is ready.

* `Work`, `Outcome`, `Request`, `Program`: what strands work on, and how a program is asked to go
  on;
* `Scheduler`: timers or frames;
* `Loop`: the state of the loop; `Loop.settle` runs what can run, `Loop.advance` moves the clock,
  `Loop.await` moves it until a condition holds, and `Loop.turn` does the next thing.
-/

namespace Cadence

/-- A piece of work: a scheduled task, something started beside the foreground, or the foreground
itself. -/
inductive Work
  | scheduled (id : Nat)
  | spawned (n : Nat)
  | foreground
deriving DecidableEq, Repr

/-- How a piece of work leaves off. Sleep is in milliseconds. -/
inductive Outcome
  | done
  | sleep (ms : Nat)
  | wait
deriving DecidableEq, Repr

/-- What work asks of the loop. -/
inductive Request
  | schedule (delay : Nat)
  | cancel (id : Nat)
  | wake (work : Work)
deriving DecidableEq, Repr

/-- A program goes on with a piece of work at a time of the clock. -/
structure Program (π : Type) where
  poll : Nat → π → Work → π × List Request × Outcome

/-- What runs scheduled tasks. A timer may ignore cancellations. -/
inductive Scheduler
  | timer (queue : TimerQueue) (cancels : Bool)
  | frames (queue : FrameQueue)
deriving Repr

/-- What the loop runs. -/
inductive Strand
  | foreground
  | spawned (n : Nat)
  | sleeper (id : Nat)
  | driver
deriving DecidableEq, Repr

/-- The state of the loop. Alarms are in the order in which they were set; `running` lists the
scheduled tasks that have started and are not done. -/
structure Loop (π : Type) where
  now : Nat := 0
  ready : List Strand := []
  summoned : Bool := false
  alarms : List (Nat × Strand) := []
  running : List Nat := []
  scheduler : Scheduler
  program : π

namespace Loop

variable {π : Type}

/-- A fresh loop. A frame driver is ready from the start. -/
def create (scheduler : Scheduler) (program : π) : Loop π :=
  match scheduler with
  | .timer .. => { scheduler, program }
  | .frames _ => { scheduler, program, ready := [.driver] }

/-- The time in nanoseconds. -/
def nanos (l : Loop π) : Nat := l.now * nanosPerMilli

/-- The strand that carries a piece of work. -/
def strandOf (l : Loop π) : Work → Strand
  | .foreground => .foreground
  | .spawned n => .spawned n
  | .scheduled id =>
    match l.scheduler with
    | .timer .. => .sleeper id
    | .frames _ => .driver

/-- Put a strand at the end of those that are ready, unless it is among them. -/
def wake (l : Loop π) (s : Strand) : Loop π :=
  if s = .foreground then { l with summoned := true }
  else if l.ready.contains s then l
  else { l with ready := l.ready ++ [s] }

/-- Let a strand go on at once. -/
def goOn (l : Loop π) (s : Strand) : Loop π := { l with ready := s :: l.ready }

/-- Wake a strand at a time; an earlier alarm of the strand is off. -/
def setAlarm (l : Loop π) (time : Nat) (s : Strand) : Loop π :=
  { l with alarms := l.alarms.filter (·.2 ≠ s) ++ [(time, s)] }

/-- Forget a strand. -/
def drop (l : Loop π) (s : Strand) : Loop π :=
  { l with ready := l.ready.filter (· ≠ s), alarms := l.alarms.filter (·.2 ≠ s) }

/-- The scheduled task has started and is not done. -/
def isRunning (l : Loop π) (id : Nat) : Bool := l.running.contains id

/-- Schedule a task. A frame driver that is not at work looks at the clock again. -/
def schedule (l : Loop π) (delay : Nat) : Loop π × Nat :=
  match l.scheduler with
  | .timer q cancels =>
    let (q, id) := q.schedule delay
    ({ l with scheduler := .timer q cancels }.wake (.sleeper id), id)
  | .frames q =>
    let (q, id) := q.schedule l.nanos (delay * nanosPerMilli)
    let l := { l with scheduler := .frames q }
    (if l.running.isEmpty then l.wake .driver else l, id)

/-- Cancel a task. -/
def cancel (l : Loop π) (id : Nat) : Loop π :=
  match l.scheduler with
  | .timer q cancels =>
    if cancels && q.isPending id then
      { l with scheduler := .timer (q.cancel id) cancels }.drop (.sleeper id)
    else l
  | .frames q => { l with scheduler := .frames (q.cancel id) }

/-- Do what is asked. -/
def serve (l : Loop π) : Request → Loop π
  | .schedule delay => (l.schedule delay).1
  | .cancel id => l.cancel id
  | .wake w => l.wake (l.strandOf w)

/-- Go on with a piece of work on its strand. -/
def work (P : Program π) (l : Loop π) (w : Work) (s : Strand) : Loop π :=
  let (program, requests, outcome) := P.poll l.now l.program w
  let l := requests.foldl serve { l with program }
  match outcome, w with
  | .sleep ms, _ => l.setAlarm (l.now + ms) s
  | .wait, _ => l
  | .done, .scheduled id =>
    let l := { l with running := l.running.filter (· ≠ id) }
    if s = .driver then l.goOn .driver else l
  | .done, _ => l

/-- Start a scheduled task, or go on with it. -/
def workOn (P : Program π) (l : Loop π) (id : Nat) (s : Strand) : Loop π :=
  work P (if l.isRunning id then l else { l with running := l.running ++ [id] }) (.scheduled id) s

/-- A sleeper looks at the clock, or goes on with its task. -/
def pollSleeper (P : Program π) (l : Loop π) (id : Nat) : Loop π :=
  match l.scheduler with
  | .frames _ => l
  | .timer q cancels =>
    if l.isRunning id then l.workOn P id (.sleeper id)
    else
      let (q, status) := q.look l.now id
      let l := { l with scheduler := .timer q cancels }
      match status with
      | .asleep due => l.setAlarm due (.sleeper id)
      | .claimed => l.workOn P id (.sleeper id)
      | .gone => l

/-- The first millisecond that is not before a time in nanoseconds. -/
def ceilMillis (nanos : Nat) : Nat := (nanos + nanosPerMilli - 1) / nanosPerMilli

/-- The frame driver goes on with the task that it runs, or looks at the clock. -/
def pollDriver (P : Program π) (l : Loop π) : Loop π :=
  match l.scheduler with
  | .timer .. => l
  | .frames q =>
    match l.running with
    | id :: _ => l.workOn P id .driver
    | [] =>
      let (q, step) := q.drive l.nanos
      let l := { l with scheduler := .frames q }
      match step with
      | .idle => l
      | .sleepUntil b => l.setAlarm (ceilMillis b) .driver
      | .run id => l.workOn P id .driver

/-- Let a strand run until it waits. -/
def poll (P : Program π) (l : Loop π) : Strand → Loop π
  | .foreground => l.work P .foreground .foreground
  | .spawned n => l.work P (.spawned n) (.spawned n)
  | .sleeper id => l.pollSleeper P id
  | .driver => l.pollDriver P

/-- Run what can run without moving the clock, up to a number of polls: ready strands in turn, and
the foreground when there are none and it is summoned. -/
def settleWithin (P : Program π) : Nat → Loop π → Loop π
  | 0, l => l
  | n + 1, l =>
    match l.ready with
    | s :: r => settleWithin P n (poll P { l with ready := r } s)
    | [] =>
      if l.summoned then settleWithin P n (poll P { l with summoned := false } .foreground) else l

/-- The number of polls after which the loop gives up. -/
def patience : Nat := 200000

/-- Run what can run without moving the clock. -/
def settle (P : Program π) (l : Loop π) : Loop π := settleWithin P patience l

/-- The time of the next alarm. -/
def nextAlarm (l : Loop π) : Option Nat := (l.alarms.map (·.1)).min?

/-- Move the clock to the time of an alarm and wake whom it concerns; the foreground, if it is among
them, goes first. -/
def ring (P : Program π) (time : Nat) (l : Loop π) : Loop π :=
  let due := l.alarms.filter (·.1 ≤ time)
  let l := { l with now := time, alarms := l.alarms.filter fun a => !decide (a.1 ≤ time) }
  let l := due.foldl (fun l a => l.wake a.2) l
  if l.summoned then poll P { l with summoned := false } .foreground else l

/-- One turn: a strand that is ready runs until it waits, or else the foreground if it is summoned,
or else the clock moves to the next alarm. -/
def turn (P : Program π) (l : Loop π) : Loop π :=
  match l.ready with
  | s :: r => poll P { l with ready := r } s
  | [] =>
    if l.summoned then poll P { l with summoned := false } .foreground
    else
      match l.nextAlarm with
      | some time => ring P time l
      | none => l

/-- Run what can run, then move from alarm to alarm up to a time. -/
def runUntil (P : Program π) (stop : Loop π → Bool) (limit : Option Nat) : Nat → Loop π → Loop π
  | 0, l => l
  | n + 1, l =>
    let l := settle P l
    if stop l then l
    else
      match l.nextAlarm with
      | none => l
      | some t =>
        if limit.any (· < t) then l else runUntil P stop limit n (ring P t l)

/-- Let time pass. -/
def advance (P : Program π) (ms : Nat) (l : Loop π) : Loop π :=
  let target := l.now + ms
  { runUntil P (fun _ => false) (some target) patience l with now := target }

/-- Let time pass until a condition holds. -/
def await (P : Program π) (stop : Loop π → Bool) (l : Loop π) : Loop π :=
  runUntil P stop none patience l

/-- Drop the scheduler. Timers that have claimed their entry go on; a frame driver stops where it
is. -/
def dropScheduler (l : Loop π) : Loop π :=
  match l.scheduler with
  | .timer q cancels =>
    let l := { l with scheduler := .timer q.cancelAll cancels }
    q.entries.foldl (fun l e => l.drop (.sleeper e.id)) l
  | .frames q =>
    let q := { q with pending := [], phase := .idle }
    { l with scheduler := .frames q, running := [] }.drop .driver

end Loop

end Cadence
