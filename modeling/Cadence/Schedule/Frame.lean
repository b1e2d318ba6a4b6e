import Cadence.Word

/-!
# Frames of time

Tasks run on common boundaries, one frame apart. A task is due at the first boundary at or after its
deadline, and all tasks that are due at a boundary run one after another, in the order of deadline
and id. Times are in nanoseconds since the start.

* `boundary`: the boundary of a deadline;
* `FrameQueue`, `FrameQueue.schedule`, `FrameQueue.cancel`;
* `FrameQueue.takeDue`: the batch of a boundary;
* `FrameQueue.drive`: the driver looks at the clock and says what it does next.
-/

namespace Cadence

/-- Nanoseconds in a millisecond. -/
def nanosPerMilli : Nat := 1000000

/-- The first multiple of the frame at or after a deadline, in a 64-bit word. A frame is at least
one nanosecond long. -/
def boundary (frame deadline : Nat) : Nat :=
  let f := max frame 1
  (deadline + f - 1) / f * f % Word.count

/-- The length of a frame at a rate of so many a second; the rate is at least one. -/
def frameOfRate (rate : Nat) : Nat := 1000000000 / max rate 1

/-- The usual rate of frames. -/
def defaultFrameRate : Nat := 60

/-- A task that has not started. -/
structure FrameTask where
  id : Nat
  deadline : Nat
deriving DecidableEq, Repr

/-- What the driver is about: nothing, the wait for a boundary, or a batch with tasks left to
start. -/
inductive DriverPhase
  | idle
  | asleep (boundary : Nat)
  | serving (batch : List Nat)
deriving DecidableEq, Repr

/-- Tasks to come and the driver that runs them. -/
structure FrameQueue where
  frame : Nat
  nextId : Nat := 1
  pending : List FrameTask := []
  phase : DriverPhase := .idle
deriving Repr

/-- What the driver does next. -/
inductive DriverStep
  | idle
  | sleepUntil (boundary : Nat)
  | run (id : Nat)
deriving DecidableEq, Repr

namespace FrameQueue

/-- Add a task. -/
def schedule (q : FrameQueue) (now delay : Nat) : FrameQueue × Nat :=
  ({ q with nextId := q.nextId + 1, pending := q.pending ++ [⟨q.nextId, now + delay⟩] }, q.nextId)

/-- Remove a task that no batch has taken. -/
def cancel (q : FrameQueue) (id : Nat) : FrameQueue :=
  { q with pending := q.pending.filter (·.id ≠ id) }

/-- The boundary of the earliest deadline. -/
def nextBoundary (q : FrameQueue) : Option Nat :=
  (q.pending.map (·.deadline)).min?.map (boundary q.frame)

/-- The task is due at a boundary. -/
def isDue (q : FrameQueue) (b : Nat) (t : FrameTask) : Bool := boundary q.frame t.deadline ≤ b

/-- The order in which tasks of a batch run. -/
def earlier (t u : FrameTask) : Bool :=
  t.deadline < u.deadline || (t.deadline = u.deadline && t.id ≤ u.id)

/-- Take every task that is due at a boundary into a batch. -/
def takeDue (q : FrameQueue) (b : Nat) : FrameQueue :=
  { q with
    pending := q.pending.filter fun t => !q.isDue b t
    phase := .serving (((q.pending.filter (q.isDue b)).mergeSort earlier).map (·.id)) }

/-- Aim at the boundary of the earliest deadline. -/
def aim (q : FrameQueue) (now : Nat) : FrameQueue :=
  match q.nextBoundary with
  | none => { q with phase := .idle }
  | some b => if b ≤ now then q.takeDue b else { q with phase := .asleep b }

/-- The phase at a time: a boundary that has come gives its batch, and without tasks left to start
the driver aims anew. -/
def settle (q : FrameQueue) (now : Nat) : FrameQueue :=
  match q.phase with
  | .serving (_ :: _) => q
  | .serving [] => q.aim now
  | .idle => q.aim now
  | .asleep b => if b ≤ now then q.takeDue b else q.aim now

/-- Say what the driver does in its phase; a task that it runs leaves the batch. An empty batch is
looked at again by settling. -/
def proceed (q : FrameQueue) : FrameQueue × DriverStep :=
  match q.phase with
  | .idle => (q, .idle)
  | .asleep b => (q, .sleepUntil b)
  | .serving [] => (q, .idle)
  | .serving (id :: rest) => ({ q with phase := .serving rest }, .run id)

/-- The driver looks at the clock. Aiming at a boundary that has come gives a batch with the
earliest task in it, so settling twice is enough to get past an empty batch. -/
def drive (q : FrameQueue) (now : Nat) : FrameQueue × DriverStep :=
  ((q.settle now).settle now).proceed

end FrameQueue

end Cadence
