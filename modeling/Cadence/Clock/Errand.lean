import Cadence.Clock.Loop

/-!
# Errands

An errand is a scheduled task that makes a note when it starts, and if it takes time another one
when it is done; one that takes no time is done with its first note.

* `Errand`, `Errands`: errands by the id of their task, and the notes so far;
* `Errands.program`: how they are run.
-/

namespace Cadence

/-- A task with a name and the time that it takes. -/
structure Errand where
  task : Nat
  name : String
  duration : Nat := 0

/-- Errands, those under way, and the notes with their times. -/
structure Errands where
  errands : List Errand := []
  underWay : List Nat := []
  notes : List (Nat × String) := []

namespace Errands

/-- Make a note. -/
def note (e : Errands) (now : Nat) (text : String) : Errands :=
  { e with notes := e.notes ++ [(now, text)] }

/-- Note the end of an errand. -/
def conclude (e : Errands) (now : Nat) (x : Errand) : Errands :=
  { e with underWay := e.underWay.filter (· ≠ x.task) }.note now (x.name ++ " done")

/-- Go on with an errand. -/
def go (now : Nat) (e : Errands) (x : Errand) : Errands × List Request × Outcome :=
  if e.underWay.contains x.task then (e.conclude now x, [], .done)
  else
    let e := e.note now x.name
    if x.duration = 0 then (e, [], .done)
    else ({ e with underWay := x.task :: e.underWay }, [], .sleep x.duration)

/-- Errands are scheduled tasks; there is no other work. -/
def program : Program Errands where
  poll now e w :=
    match w with
    | .scheduled id =>
      match e.errands.find? (·.task = id) with
      | some x => go now e x
      | none => (e, [], .done)
    | _ => (e, [], .done)

end Errands

/-- The length of a frame, if the scheduler has frames. -/
def Scheduler.frame? : Scheduler → Option Nat
  | .timer .. => none
  | .frames q => some q.frame

/-- The number of pending tasks, if the scheduler counts them. -/
def Scheduler.pendingCount? : Scheduler → Option Nat
  | .timer q _ => some q.pendingCount
  | .frames _ => none

namespace Loop

/-- Send an errand after a delay. -/
def send (l : Loop Errands) (name : String) (delay : Nat) (duration : Nat) : Loop Errands × Nat :=
  let (l, id) := l.schedule delay
  let errands := l.program.errands ++ [⟨id, name, duration⟩]
  ({ l with program := { l.program with errands } }, id)

/-- Call back the latest errand of a name. -/
def callBack (l : Loop Errands) (name : String) : Loop Errands :=
  match l.program.errands.reverse.find? (·.name = name) with
  | some x => l.cancel x.task
  | none => l

end Loop

end Cadence
