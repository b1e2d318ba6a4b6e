import Cadence.Clock.Loop
import Cadence.Playback.Session

/-!
# Sessions on a loop

On a loop a session's ticks are scheduled tasks, and what callers do is work of its own. Work that
needs the engine goes on when its job is at the head of the queue and when the step it has begun is
over.

* `Operation`: what a caller does; `Stage`: a session, the work under way, and a report with times;
* `Stage.program`: how it is run;
* `Stage.start`, `Stage.spawn`: begin an operation in the foreground, or beside it.
-/

namespace Cadence

/-- What a caller does with a session: something at once, or a job for the engine. -/
inductive Operation (ε : Type)
  | act (action : Session.Action ε)
  | order (order : Order ε)

/-- An entry of a report: a listener was called, or an engine was shut down. -/
inductive Report (ε : Type)
  | heard (time : Nat) (name : String) (playing : Bool) (snapshot : Snapshot)
  | shutDown (engine : ε)

/-- A session with the jobs and the operations of the work under way, the report so far, and the
result of the last job of the foreground. -/
structure Stage (ε : Type) where
  session : Session ε := {}
  jobs : List (Work × Nat) := []
  operations : List (Work × Operation ε) := []
  spawned : Nat := 0
  report : List (Report ε) := []
  result : Option Snapshot := none

namespace Stage

variable {ε : Type}

/-- The job of a piece of work. -/
def jobOf (t : Stage ε) (w : Work) : Option Nat := (t.jobs.find? (·.1 = w)).map (·.2)

/-- The work that a job belongs to. -/
def workOf (t : Stage ε) (job : Nat) : Option Work := (t.jobs.find? (·.2 = job)).map (·.1)

/-- What an event asks of the loop. -/
def requests (t : Stage ε) : SessionEvent ε → List Request
  | .armed _ delay => [.schedule delay]
  | .cancelled handle => [.cancel handle]
  | .granted job => ((t.workOf job).map Request.wake).toList
  | _ => []

/-- What an event adds to the report and to the result. -/
def record (now : Nat) (t : Stage ε) : SessionEvent ε → Stage ε
  | .heard _ name playing snapshot =>
    { t with report := t.report ++ [.heard now name playing snapshot] }
  | .shutDown e => { t with report := t.report ++ [.shutDown e] }
  | .finished job result =>
    let t := if t.workOf job = some .foreground then { t with result } else t
    { t with jobs := t.jobs.filter (·.2 ≠ job) }
  | _ => t

/-- Empty the log of the session into requests and the report. -/
def collect (now : Nat) (t : Stage ε) : Stage ε × List Request :=
  let events := t.session.log.reverse
  let requests := events.flatMap t.requests
  (events.foldl (record now) { t with session := { t.session with log := [] } }, requests)

/-- Let the session act, and collect what comes of it. -/
def perform (S : Stepper ε) (now : Nat) (t : Stage ε) (a : Session.Action ε) :
    Stage ε × List Request :=
  collect now { t with session := t.session.act S a }

/-- End the step that the head of the queue has begun. -/
def completeJob (S : Stepper ε) (now : Nat) (t : Stage ε) : Stage ε × List Request × Outcome :=
  let (t, rs) := t.perform S now .complete
  (t, rs, .done)

/-- Let the head of the queue begin. A step that takes time is completed after a sleep. -/
def beginJob (S : Stepper ε) (duration : ε → Nat) (now : Nat) (t : Stage ε) :
    Stage ε × List Request × Outcome :=
  let (t, rs) := t.perform S now .begin
  if t.session.stepping then
    match (t.session.engine.map duration).getD 0 with
    | 0 =>
      let (t, rs', o) := t.completeJob S now
      (t, rs ++ rs', o)
    | ms => (t, rs, .sleep ms)
  else (t, rs, .done)

/-- Go on with the work that a job belongs to. -/
def goOn (S : Stepper ε) (duration : ε → Nat) (now : Nat) (t : Stage ε) (job : Nat) :
    Stage ε × List Request × Outcome :=
  match t.session.queue with
  | [] => (t, [], .done)
  | head :: _ =>
    if head.id ≠ job then (t, [], .wait)
    else if t.session.stepping then t.completeJob S now
    else t.beginJob S duration now

/-- A job of the work joins the queue by an action, if that lets one join. -/
def join (S : Stepper ε) (duration : ε → Nat) (now : Nat) (t : Stage ε) (w : Work)
    (a : Session.Action ε) : Stage ε × List Request × Outcome :=
  let job := t.session.nextJob
  let (t, rs) := t.perform S now a
  if t.session.nextJob = job then (t, rs, .done)
  else
    let (t, rs', o) := goOn S duration now { t with jobs := t.jobs ++ [(w, job)] } job
    (t, rs ++ rs', o)

/-- Go on with a piece of work. -/
def poll (S : Stepper ε) (duration : ε → Nat) (now : Nat) (t : Stage ε) (w : Work) :
    Stage ε × List Request × Outcome :=
  match t.jobOf w, w with
  | some job, _ => t.goOn S duration now job
  | none, .scheduled handle => t.join S duration now w (.fire handle)
  | none, _ =>
    match t.operations.find? (·.1 = w) with
    | none => (t, [], .done)
    | some (_, operation) =>
      let t := { t with operations := t.operations.filter (·.1 ≠ w) }
      match operation with
      | .act a =>
        let (t, rs) := t.perform S now a
        (t, rs, .done)
      | .order o => t.join S duration now w (.enter o)

/-- A session as a program of a loop; `duration` is the time that a step of an engine takes. -/
def program (S : Stepper ε) (duration : ε → Nat) : Program (Stage ε) := ⟨poll S duration⟩

/-- The foreground is done with its operation. -/
def isIdle (l : Loop (Stage ε)) : Bool :=
  !l.summoned && (l.program.jobOf .foreground).isNone

/-- Do an operation in the foreground, letting time pass until it is done. -/
def start (S : Stepper ε) (duration : ε → Nat) (l : Loop (Stage ε)) (o : Operation ε) :
    Loop (Stage ε) :=
  let P := program S duration
  let t := l.program
  let t := { t with operations := t.operations ++ [(Work.foreground, o)], result := none }
  let l := { l with program := t }
  (l.poll P .foreground).await P isIdle

/-- Start an operation beside the foreground. -/
def spawn (l : Loop (Stage ε)) (o : Operation ε) : Loop (Stage ε) :=
  let t := l.program
  let w := Work.spawned t.spawned
  let operations := t.operations ++ [(w, o)]
  { l with program := { t with operations, spawned := t.spawned + 1 } }.wake (.spawned t.spawned)

end Stage

end Cadence
