import Cadence.Playback.Autoplay
import Cadence.Proofs.Schedule.OnLoop

/-!
# One task after the other

The only work of a loop may be a chain of scheduled tasks, each of which schedules the next one when
it runs. Then timers and frames differ in how long they wait, and in nothing else: a task runs after
two turns or fewer.

* `FrameQueue.drive_due`, `FrameQueue.drive_early`: the driver looks at a single task;
* `Loop.Bare`, `Loop.Lone`: a loop with no task to come, and one with a single task;
* `Loop.Bare.foreground`, `Loop.Bare.turn`: what the foreground and the clock do to the former;
* **`Loop.Lone.turn`**: a turn brings the task nearer or runs it;
* `Loop.settleWithin_keeps`, `Loop.await_keeps`: what turns keep, settling and waiting keep as well.
-/

namespace Cadence

namespace FrameQueue

variable {q : FrameQueue} {now : Nat} {t : FrameTask}

theorem drive_due (free : q.batch = []) (single : q.pending = [t])
    (come : boundary q.frame t.deadline ≤ now) :
    q.drive now = ({ q with pending := [], phase := .serving [] }, .run t.id) := by
  obtain ⟨frame, nextId, pending, phase⟩ := q
  cases single
  dsimp only at come
  -- a boundary that was waited for and has come may be an earlier one than that of the task
  cases phase with
  | idle => simp [drive, settle, aim, nextBoundary, come, takeDue, isDue, proceed]
  | asleep b =>
    by_cases woken : b ≤ now
    · by_cases earlier : boundary frame t.deadline ≤ b
      · simp [drive, settle, woken, earlier, takeDue, isDue, proceed]
      · simp [drive, settle, woken, earlier, aim, nextBoundary, come, takeDue, isDue, proceed]
    · simp [drive, settle, woken, aim, nextBoundary, come, takeDue, isDue, proceed]
  | serving batch =>
    cases (show batch = [] from free)
    simp [drive, settle, aim, nextBoundary, come, takeDue, isDue, proceed]

theorem drive_early (free : q.batch = []) (single : q.pending = [t])
    (wait : now < boundary q.frame t.deadline) :
    q.drive now = ({ q with phase := .asleep (boundary q.frame t.deadline) },
      .sleepUntil (boundary q.frame t.deadline)) := by
  obtain ⟨frame, nextId, pending, phase⟩ := q
  cases single
  have later : ¬ boundary frame t.deadline ≤ now := Nat.not_le.mpr wait
  cases phase with
  | idle => simp [drive, settle, aim, nextBoundary, later, proceed]
  | asleep b =>
    by_cases woken : b ≤ now
    · have apart : ¬ boundary frame t.deadline ≤ b := fun le => later (Nat.le_trans le woken)
      simp [drive, settle, woken, apart, aim, nextBoundary, later, takeDue, isDue, proceed]
    · simp [drive, settle, woken, aim, nextBoundary, later, proceed]
  | serving batch =>
    cases (show batch = [] from free)
    simp [drive, settle, aim, nextBoundary, later, proceed]

theorem drive_nil (free : q.batch = []) (none : q.pending = []) :
    q.drive now = ({ q with phase := .idle }, .idle) := by
  obtain ⟨frame, nextId, pending, phase⟩ := q
  cases none
  cases phase with
  | idle => simp [drive, settle, aim, nextBoundary, proceed]
  | asleep b =>
    by_cases woken : b ≤ now
    · simp [drive, settle, woken, takeDue, aim, nextBoundary, proceed]
    · simp [drive, settle, woken, aim, nextBoundary, proceed]
  | serving batch =>
    cases (show batch = [] from free)
    simp [drive, settle, aim, nextBoundary, proceed]

end FrameQueue

namespace Loop

variable {π : Type} {P : Program π} {n k : Nat} {l : Loop π} {p : π}

/-! ## Loops with one task or none -/

/-- No task is to come, and the next one will have the number `n`. -/
inductive Bare (n : Nat) (p : π) : Loop π → Prop
  | timer (now : Nat) (cancels : Bool) :
      Bare n p { now, scheduler := .timer { nextId := n } cancels, program := p }
  | frames (now : Nat) {ready : List Strand} {q : FrameQueue} (next : q.nextId = n)
      (none : q.pending = []) (free : q.batch = []) (calm : ready = [] ∨ ready = [.driver]) :
      Bare n p { now, ready, scheduler := .frames q, program := p }

/-- The task `n` is the only one to come, and it runs after at most `k` more turns. -/
inductive Lone (n : Nat) (p : π) : Nat → Loop π → Prop
  | sleeper {k : Nat} (now : Nat) (cancels : Bool) {delay : Nat} {due : Option Nat}
      (near : k < 2 → due.getD (now + delay) ≤ now) :
      Lone n p k
        { now, ready := [.sleeper n], program := p,
          scheduler := .timer ⟨n + 1, [⟨n, true⟩], [⟨n, delay, due⟩]⟩ cancels }
  | alarm (now : Nat) (cancels : Bool) {delay due : Nat} :
      Lone n p 1
        { now, alarms := [(due, .sleeper n)], program := p,
          scheduler := .timer ⟨n + 1, [⟨n, true⟩], [⟨n, delay, some due⟩]⟩ cancels }
  | driver {k : Nat} (now : Nat) {q : FrameQueue} {deadline : Nat} (next : q.nextId = n + 1)
      (single : q.pending = [⟨n, deadline⟩]) (free : q.batch = [])
      (near : k < 2 → boundary q.frame deadline ≤ now * nanosPerMilli) :
      Lone n p k { now, ready := [.driver], scheduler := .frames q, program := p }
  | frame (now : Nat) {q : FrameQueue} {deadline : Nat} (next : q.nextId = n + 1)
      (single : q.pending = [⟨n, deadline⟩]) (free : q.batch = []) :
      Lone n p 1
        { now, alarms := [(ceilMillis (boundary q.frame deadline), .driver)],
          scheduler := .frames q, program := p }

/-- What a loop comes to when work has asked for the next task, or for none. -/
def Leaves (n : Nat) (p : π) (l : Loop π) : Option Nat → Prop
  | none => Bare n p l
  | some _ => Lone n p 2 l

/-- The request for the next task, if there is one. -/
def asked (next : Option Nat) : List Request := (next.map Request.schedule).toList

theorem Bare.program_eq (h : Bare n p l) : l.program = p := by cases h <;> rfl

theorem Lone.program_eq (h : Lone n p k l) : l.program = p := by cases h <;> rfl

theorem Bare.summoned_eq (h : Bare n p l) : l.summoned = false := by cases h <;> rfl

theorem Lone.summoned_eq (h : Lone n p k l) : l.summoned = false := by cases h <;> rfl

/-- The program can be replaced. -/
theorem Bare.replace (h : Bare n p l) (p' : π) : Bare n p' { l with program := p' } := by
  cases h with
  | timer now cancels => exact .timer now cancels
  | frames now next none free calm => exact .frames now next none free calm

theorem bare_create (kind : SchedulerKind) (frameRate : Nat) (p : π) :
    Bare 1 p (Loop.create (kind.scheduler frameRate) p) := by
  cases kind with
  | timer => exact .timer 0 true
  | frame => exact .frames 0 rfl rfl rfl (.inr rfl)

/-! ## Work -/

theorem poll_foreground {p' : π} {rs : List Request}
    (polled : P.poll l.now l.program .foreground = (p', rs, .done)) :
    l.poll P .foreground = rs.foldl serve { l with program := p' } := by
  show l.work P .foreground .foreground = _
  unfold work
  rw [polled]

theorem work_scheduled {p' : π} {rs : List Request} (x : Strand)
    (polled : P.poll l.now l.program (.scheduled n) = (p', rs, .done)) :
    l.work P (.scheduled n) x =
      let l' := rs.foldl serve { l with program := p' }
      let l' := { l' with running := l'.running.filter (· ≠ n) }
      if x = .driver then l'.goOn .driver else l' := by
  unfold work
  rw [polled]

theorem serve_timer (now : Nat) (running : List Nat) (cancels : Bool) (delay : Nat) :
    serve { now, running, scheduler := .timer { nextId := n } cancels, program := p }
        (.schedule delay) =
      { now, running, ready := [.sleeper n], program := p,
        scheduler := .timer ⟨n + 1, [⟨n, true⟩], [⟨n, delay, none⟩]⟩ cancels } := by
  simp [serve, schedule, TimerQueue.schedule, TimerQueue.reserve, TimerQueue.spawn,
    TimerQueue.record, wake]

theorem serve_frames (now : Nat) (running : List Nat) {ready : List Strand} {q : FrameQueue}
    (next : q.nextId = n) (none : q.pending = []) (calm : ready = [] ∨ ready = [.driver])
    (delay : Nat) :
    serve { now, running, ready, scheduler := .frames q, program := p } (.schedule delay) =
      { now, running, ready := if running.isEmpty then [.driver] else ready, program := p,
        scheduler := .frames { q with
          nextId := n + 1
          pending := [⟨n, now * nanosPerMilli + delay * nanosPerMilli⟩] } } := by
  rcases calm with rfl | rfl
    <;> cases running
    <;> simp [serve, schedule, FrameQueue.schedule, next, none, wake, nanos]

/-- Work of the foreground is done at once. -/
theorem Bare.foreground (h : Bare n p l) {p' : π} {next : Option Nat}
    (polled : P.poll l.now p .foreground = (p', asked next, .done)) :
    Leaves n p' (l.poll P .foreground) next := by
  rw [← h.program_eq] at polled
  rw [poll_foreground polled]
  cases next with
  | none => exact h.replace p'
  | some delay =>
    cases h with
    | timer now cancels =>
      show Lone n p' 2 (serve _ (.schedule delay))
      rw [serve_timer]
      exact .sleeper now cancels nofun
    | frames now next none free calm =>
      show Lone n p' 2 (serve _ (.schedule delay))
      rw [serve_frames now [] next none calm]
      exact .driver now rfl rfl free nofun

theorem Bare.turn (P : Program π) (h : Bare n p l) : Bare n p (l.turn P) := by
  cases h with
  | timer now cancels => exact .timer now cancels
  | @frames now _ q next none free calm =>
    rcases calm with rfl | rfl
    · exact .frames now next none free (.inl rfl)
    · have looked : turn P { now, ready := [.driver], scheduler := .frames q, program := p } =
          { now, scheduler := .frames { q with phase := .idle }, program := p } := by
        simp [Loop.turn, poll, pollDriver, FrameQueue.drive_nil free none]
      rw [looked]
      exact .frames now next none rfl (.inl rfl)

/-! ## The task -/

theorem runs_sleeper {now : Nat} {cancels : Bool} {delay : Nat} {due : Option Nat}
    (come : due.getD (now + delay) ≤ now) {p' : π} {next : Option Nat}
    (polled : P.poll now p (.scheduled n) = (p', asked next, .done)) :
    Leaves (n + 1) p'
      (turn P
        { now, ready := [.sleeper n], program := p,
          scheduler := .timer ⟨n + 1, [⟨n, true⟩], [⟨n, delay, due⟩]⟩ cancels }) next := by
  let l : Loop π :=
    { now, running := [n], program := p, scheduler := .timer { nextId := n + 1 } cancels }
  have claimed : turn P
      { now, ready := [.sleeper n], program := p,
        scheduler := .timer ⟨n + 1, [⟨n, true⟩], [⟨n, delay, due⟩]⟩ cancels } =
      l.work P (.scheduled n) (.sleeper n) := by
    simp [turn, poll, pollSleeper, isRunning, TimerQueue.look, come, TimerQueue.wake,
      TimerQueue.isPending, TimerQueue.dropEntry, TimerQueue.dropSleeper, workOn, l]
  rw [claimed]
  cases next with
  | none =>
    have done : l.work P (.scheduled n) (.sleeper n) =
        { now, scheduler := .timer { nextId := n + 1 } cancels, program := p' } := by
      rw [work_scheduled (l := l) _ polled]
      simp [asked, l]
    rw [done]
    exact Bare.timer now cancels
  | some delay' =>
    have done : l.work P (.scheduled n) (.sleeper n) =
        { now, ready := [.sleeper (n + 1)], program := p',
          scheduler := .timer ⟨n + 2, [⟨n + 1, true⟩], [⟨n + 1, delay', none⟩]⟩ cancels } := by
      rw [work_scheduled (l := l) _ polled]
      simp [asked, l, serve_timer]
    rw [done]
    show Lone _ _ 2 _
    exact .sleeper now cancels fun lt => absurd lt (Nat.lt_irrefl 2)

theorem runs_driver {now : Nat} {q : FrameQueue} {deadline : Nat} (nextId : q.nextId = n + 1)
    (single : q.pending = [⟨n, deadline⟩]) (free : q.batch = [])
    (come : boundary q.frame deadline ≤ now * nanosPerMilli) {p' : π} {next : Option Nat}
    (polled : P.poll now p (.scheduled n) = (p', asked next, .done)) :
    Leaves (n + 1) p'
      (turn P { now, ready := [.driver], scheduler := .frames q, program := p }) next := by
  let l : Loop π :=
    { now, running := [n], program := p,
      scheduler := .frames { q with pending := [], phase := .serving [] } }
  have served : turn P { now, ready := [.driver], scheduler := .frames q, program := p } =
      l.work P (.scheduled n) .driver := by
    simp [turn, poll, pollDriver, nanos, FrameQueue.drive_due free single come, workOn,
      isRunning, l]
  rw [served]
  cases next with
  | none =>
    have done : l.work P (.scheduled n) .driver =
        { now, ready := [.driver], program := p',
          scheduler := .frames { q with pending := [], phase := .serving [] } } := by
      rw [work_scheduled (l := l) _ polled]
      simp [asked, l, goOn]
    rw [done]
    exact Bare.frames now nextId rfl rfl (.inr rfl)
  | some delay' =>
    have done : l.work P (.scheduled n) .driver =
        { now, ready := [.driver], program := p',
          scheduler := .frames { q with
            nextId := n + 2
            pending := [⟨n + 1, now * nanosPerMilli + delay' * nanosPerMilli⟩]
            phase := .serving [] } } := by
      let free : FrameQueue := { q with pending := [], phase := .serving [] }
      rw [work_scheduled (l := l) _ polled]
      simp [asked, l, goOn, serve_frames (q := free) now [n] nextId rfl (.inl rfl), free]
    rw [done]
    show Lone _ _ 2 _
    exact .driver now rfl rfl rfl fun lt => absurd lt (Nat.lt_irrefl 2)

theorem turn_alarm (now due : Nat) (x : Strand) (apart : x ≠ .foreground) (s : Scheduler) (p : π) :
    turn P { now, alarms := [(due, x)], scheduler := s, program := p } =
      { now := due, ready := [x], scheduler := s, program := p } := by
  simp [turn, nextAlarm, ring, wake, apart]

theorem turn_sleeper {now : Nat} {delay : Nat} {due : Option Nat} (cancels : Bool)
    (wait : ¬ due.getD (now + delay) ≤ now) :
    turn P
        { now, ready := [.sleeper n], program := p,
          scheduler := .timer ⟨n + 1, [⟨n, true⟩], [⟨n, delay, due⟩]⟩ cancels } =
      { now, alarms := [(due.getD (now + delay), .sleeper n)], program := p,
        scheduler := .timer
          ⟨n + 1, [⟨n, true⟩], [⟨n, delay, some (due.getD (now + delay))⟩]⟩ cancels } := by
  simp [turn, poll, pollSleeper, isRunning, TimerQueue.look, wait, setAlarm]

theorem turn_driver {now : Nat} {q : FrameQueue} {deadline : Nat}
    (single : q.pending = [⟨n, deadline⟩]) (free : q.batch = [])
    (wait : now * nanosPerMilli < boundary q.frame deadline) :
    turn P { now, ready := [.driver], scheduler := .frames q, program := p } =
      { now, alarms := [(ceilMillis (boundary q.frame deadline), .driver)], program := p,
        scheduler := .frames { q with phase := .asleep (boundary q.frame deadline) } } := by
  simp [turn, poll, pollDriver, nanos, setAlarm, FrameQueue.drive_early free single wait]

theorem le_ceilMillis (b : Nat) : b ≤ ceilMillis b * nanosPerMilli := by
  rw [← Nat.not_lt, ← lt_ceilMillis_iff]
  exact Nat.lt_irrefl _

/-- **A turn** brings the only task nearer, or runs it. -/
theorem Lone.turn (h : Lone n p k l) :
    (∃ k' < k, Lone n p k' (l.turn P)) ∨
      ∀ {p' next}, P.poll l.now p (.scheduled n) = (p', asked next, .done) →
        Leaves (n + 1) p' (l.turn P) next := by
  cases h with
  | @sleeper k now cancels delay due near =>
    by_cases come : due.getD (now + delay) ≤ now
    · exact .inr fun polled => runs_sleeper come polled
    · rw [turn_sleeper cancels come]
      exact .inl ⟨1, Nat.not_lt.mp (mt near come), .alarm now cancels⟩
  | @alarm now cancels delay due =>
    rw [turn_alarm now due (.sleeper n) nofun]
    exact .inl ⟨0, Nat.one_pos, .sleeper due cancels fun _ => Nat.le_refl due⟩
  | @driver k now q deadline next single free near =>
    by_cases come : boundary q.frame deadline ≤ now * nanosPerMilli
    · exact .inr fun polled => runs_driver next single free come polled
    · rw [turn_driver single free (Nat.not_le.mp come)]
      let aiming : FrameQueue := { q with phase := .asleep (boundary q.frame deadline) }
      exact .inl ⟨1, Nat.not_lt.mp (mt near come), .frame now (q := aiming) next single rfl⟩
  | @frame now q deadline next single free =>
    rw [turn_alarm now _ .driver nofun]
    exact .inl ⟨0, Nat.one_pos, .driver _ next single free fun _ => le_ceilMillis _⟩

/-! ## Settling -/

theorem settleWithin_keeps {I : Loop π → Prop} (h : ∀ l, I l → I (l.turn P)) (k : Nat) {l : Loop π}
    (holds : I l) : I (settleWithin P k l) := by
  induction k generalizing l with
  | zero => exact holds
  | succ k ih =>
    have kept := h l holds
    unfold turn at kept
    unfold settleWithin
    cases ready : l.ready with
    | cons x rest =>
      rw [ready] at kept
      exact ih kept
    | nil =>
      rw [ready] at kept
      by_cases summoned : l.summoned = true
      · simp only [if_pos summoned] at kept ⊢
        exact ih kept
      · simp only [if_neg summoned]
        exact holds

theorem await_keeps {I : Loop π → Prop} {stop : Loop π → Bool} (h : ∀ l, I l → I (l.turn P))
    (stops : ∀ l, I l → stop l = true) (holds : I l) : I (l.await P stop) := by
  have settled : I (settle P l) := settleWithin_keeps h patience holds
  show I (runUntil P stop none (199999 + 1) l)
  unfold runUntil
  dsimp only
  rw [if_pos (stops _ settled)]
  exact settled

end Loop

end Cadence
