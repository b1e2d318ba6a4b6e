/-!
# Timers

Every task has a sleeper of its own, and an entry that says it is still wanted. A sleeper that wakes
claims its entry and runs the task; a cancelled task has no entry any more. Times are in
milliseconds.

* `TimerQueue`, `TimerQueue.reserve`, `TimerQueue.spawn`, `TimerQueue.record`: the three parts of
  scheduling a task; `TimerQueue.schedule`: all of them;
* `TimerQueue.cancel`: withdraw a task;
* `TimerQueue.look`: a sleeper looks at the clock.
-/

namespace Cadence

/-- A task that is neither claimed nor cancelled, and whether its sleeper can be stopped already. -/
structure TimerEntry where
  id : Nat
  recorded : Bool := false
deriving DecidableEq, Repr

/-- What waits for the delay of a task. The time is set when it first looks at the clock. -/
structure Sleeper where
  id : Nat
  delay : Nat
  due : Option Nat := none
deriving DecidableEq, Repr

/-- Tasks by their entries and their sleepers. -/
structure TimerQueue where
  nextId : Nat := 1
  entries : List TimerEntry := []
  sleepers : List Sleeper := []
deriving Repr

/-- What a sleeper does after a look at the clock. -/
inductive SleeperStatus
  | asleep (due : Nat)
  | claimed
  | gone
deriving DecidableEq, Repr

namespace TimerQueue

/-- Take the next id and make its entry. -/
def reserve (q : TimerQueue) : TimerQueue × Nat :=
  ({ q with nextId := q.nextId + 1, entries := q.entries ++ [⟨q.nextId, false⟩] }, q.nextId)

/-- Start the sleeper of a task. -/
def spawn (q : TimerQueue) (id delay : Nat) : TimerQueue :=
  { q with sleepers := q.sleepers ++ [⟨id, delay, none⟩] }

/-- Remember the sleeper in the entry of its task, if there still is one. -/
def record (q : TimerQueue) (id : Nat) : TimerQueue :=
  { q with entries := q.entries.map fun e => if e.id = id then { e with recorded := true } else e }

/-- Schedule a task. -/
def schedule (q : TimerQueue) (delay : Nat) : TimerQueue × Nat :=
  let (q, id) := q.reserve
  ((q.spawn id delay).record id, id)

/-- The task has an entry. -/
def isPending (q : TimerQueue) (id : Nat) : Bool := q.entries.any (·.id = id)

/-- The number of tasks that are neither claimed nor cancelled. -/
def pendingCount (q : TimerQueue) : Nat := q.entries.length

/-- Remove an entry. -/
def dropEntry (q : TimerQueue) (id : Nat) : TimerQueue :=
  { q with entries := q.entries.filter (·.id ≠ id) }

/-- Remove a sleeper. -/
def dropSleeper (q : TimerQueue) (id : Nat) : TimerQueue :=
  { q with sleepers := q.sleepers.filter (·.id ≠ id) }

/-- Withdraw a task. Its sleeper is stopped if the entry remembers it; without an entry nothing
happens. -/
def cancel (q : TimerQueue) (id : Nat) : TimerQueue :=
  if q.entries.any fun e => e.id = id && e.recorded then (q.dropEntry id).dropSleeper id
  else q.dropEntry id

/-- A sleeper that has slept long enough ends; it runs its task if it finds the entry. -/
def wake (q : TimerQueue) (id : Nat) : TimerQueue × SleeperStatus :=
  ((q.dropEntry id).dropSleeper id, if q.isPending id then .claimed else .gone)

/-- A sleeper looks at the clock. The first look sets the time to wait for. -/
def look (q : TimerQueue) (now id : Nat) : TimerQueue × SleeperStatus :=
  match q.sleepers.find? (·.id = id) with
  | none => (q, .gone)
  | some s =>
    let due := s.due.getD (now + s.delay)
    if due ≤ now then q.wake id
    else
      let sleepers := q.sleepers.map fun s => if s.id = id then { s with due := some due } else s
      ({ q with sleepers }, .asleep due)

/-- Withdraw every task that is not claimed. -/
def cancelAll (q : TimerQueue) : TimerQueue := q.entries.foldl (fun q e => q.cancel e.id) q

end TimerQueue

end Cadence
