import Cadence.Proofs.Schedule.Boundary
import Mathlib.Data.List.Permutation

/-!
# Frames in service

A frame queue in service: the clock goes on, tasks are scheduled and cancelled at any time, and the
driver looks at the clock and runs the tasks of its batch one after another. A service keeps a
history, and it is changed by actions alone, so that its runs are lists of actions.

* `FrameQueue.batch`, `FrameQueue.due`: the tasks left to start, and those due at a boundary;
* `FrameQueue.aim_cases`, `FrameQueue.settle_cases`: what a look at the clock comes to;
* `FrameService`, `FrameService.act`, `FrameService.run`;
* `FrameService.Move`: all that an action can do, each with the condition under which it is done;
* **`FrameService.move_act`**, `FrameService.keeps_run`: invariants of moves are invariants of runs.
-/

namespace Cadence

/-- A task comes before another one: by its deadline, and by its id among equal deadlines. -/
def FrameTask.Precedes (t u : FrameTask) : Prop :=
  t.deadline < u.deadline ∨ t.deadline = u.deadline ∧ t.id < u.id

namespace FrameQueue

/-- The tasks that are left to start in the batch of the driver. -/
def batch (q : FrameQueue) : List Nat :=
  match q.phase with
  | .serving ids => ids
  | _ => []

/-- The pending tasks that are due at a boundary, in the order in which they run. -/
def due (q : FrameQueue) (b : Nat) : List FrameTask :=
  (q.pending.filter (q.isDue b)).mergeSort earlier

variable {q : FrameQueue} {b now : Nat} {t : FrameTask}

/-! ## Batches -/

theorem mem_due : t ∈ q.due b ↔ t ∈ q.pending ∧ boundary q.frame t.deadline ≤ b := by
  rw [due, List.mem_mergeSort, List.mem_filter, isDue, decide_eq_true_eq]

theorem mem_pending_takeDue :
    t ∈ (q.takeDue b).pending ↔ t ∈ q.pending ∧ b < boundary q.frame t.deadline := by
  unfold takeDue
  dsimp only
  rw [List.mem_filter, isDue, Bool.not_eq_true', decide_eq_false_iff_not, Nat.not_le]

theorem perm_takeDue (q : FrameQueue) (b : Nat) :
    (q.due b ++ (q.takeDue b).pending).Perm q.pending :=
  ((List.mergeSort_perm _ _).append_right _).trans (List.filter_append_perm _ _)

theorem earlier_iff {t u : FrameTask} :
    earlier t u = true ↔ t.deadline < u.deadline ∨ t.deadline = u.deadline ∧ t.id ≤ u.id := by
  simp [earlier]

/-- **The tasks of a batch are in order.** -/
theorem pairwise_due (distinct : (q.pending.map (·.id)).Nodup) :
    (q.due b).Pairwise FrameTask.Precedes := by
  have sorted : (q.due b).Pairwise fun t u => earlier t u = true := by
    refine List.pairwise_mergeSort (fun t u v tu uv => ?_) (fun t u => ?_) _
    · rw [earlier_iff] at tu uv ⊢
      omega
    · rw [Bool.or_eq_true, earlier_iff, earlier_iff]
      omega
  have apart : (q.due b).Pairwise fun t u => t.id ≠ u.id := by
    have all := (((perm_takeDue q b).map (·.id)).nodup_iff).mpr distinct
    rw [List.map_append] at all
    exact List.pairwise_map.mp all.of_append_left
  refine (sorted.and apart).imp fun ⟨le, ne⟩ => ?_
  rw [earlier_iff] at le
  unfold FrameTask.Precedes
  omega

/-! ## Looks at the clock -/

/-- The driver has nothing to wait for, or waits for the boundary of the earliest deadline. -/
def Aims (q : FrameQueue) (now : Nat) (phase : DriverPhase) : Prop :=
  phase = .idle ∧ q.pending = [] ∨ ∃ b, phase = .asleep b ∧ q.nextBoundary = some b ∧ now < b

theorem nextBoundary_eq_none_iff : q.nextBoundary = none ↔ q.pending = [] := by
  rw [nextBoundary, Option.map_eq_none_iff, List.min?_eq_none_iff, List.map_eq_nil_iff]

theorem exists_of_nextBoundary (h : q.nextBoundary = some b) :
    ∃ t ∈ q.pending, boundary q.frame t.deadline = b ∧
      ∀ u ∈ q.pending, t.deadline ≤ u.deadline := by
  obtain ⟨d, least, rfl⟩ := Option.map_eq_some_iff.mp h
  obtain ⟨mem, le⟩ := List.min?_eq_some_iff.mp least
  obtain ⟨t, pending, rfl⟩ := List.mem_map.mp mem
  exact ⟨t, pending, rfl, fun u mem => le _ (List.mem_map_of_mem mem)⟩

theorem aim_cases (q : FrameQueue) (now : Nat) :
    (∃ b ≤ now, q.nextBoundary = some b ∧ q.aim now = q.takeDue b) ∨
      ∃ phase, q.Aims now phase ∧ q.aim now = { q with phase } := by
  unfold aim
  split
  · next none => exact .inr ⟨.idle, .inl ⟨rfl, nextBoundary_eq_none_iff.mp none⟩, rfl⟩
  · next b some =>
    split
    · next come => exact .inl ⟨b, come, some, rfl⟩
    · next wait => exact .inr ⟨.asleep b, .inr ⟨b, rfl, some, Nat.not_le.mp wait⟩, rfl⟩

/-- **A look at the clock** without tasks left to start takes a batch or aims. The boundary of a
batch is the one that was waited for, or that of the earliest deadline. -/
theorem settle_cases (free : q.batch = []) (now : Nat) :
    (∃ b ≤ now, (q.phase = .asleep b ∨ q.nextBoundary = some b) ∧ q.settle now = q.takeDue b) ∨
      ∃ phase, q.Aims now phase ∧ q.settle now = { q with phase } := by
  have aimed : (∃ b ≤ now, (q.phase = .asleep b ∨ q.nextBoundary = some b) ∧
      q.aim now = q.takeDue b) ∨ ∃ phase, q.Aims now phase ∧ q.aim now = { q with phase } :=
    (aim_cases q now).imp_left fun ⟨b, come, next, eq⟩ => ⟨b, come, .inr next, eq⟩
  unfold settle
  split
  · next id rest serving =>
    rw [batch, serving] at free
    cases free
  · exact aimed
  · exact aimed
  · next b asleep =>
    split
    · next come => exact .inl ⟨b, come, .inl asleep, rfl⟩
    · exact aimed

theorem settle_of_batch (busy : q.batch ≠ []) (now : Nat) : q.settle now = q := by
  unfold settle
  split
  · rfl
  · next serving => exact absurd (by rw [batch, serving]) busy
  · next idle => exact absurd (by rw [batch, idle]) busy
  · next asleep => exact absurd (by rw [batch, asleep]) busy

theorem batch_of_aims {phase : DriverPhase} (aims : q.Aims now phase) :
    ({ q with phase } : FrameQueue).batch = [] := by
  rcases aims with ⟨rfl, -⟩ | ⟨b, rfl, -⟩ <;> rfl

end FrameQueue

/-! ## Services -/

/-- A frame queue in service. `woken` says that tasks have been scheduled since the driver last
looked. The history lists all the tasks that were scheduled, those that were cancelled, and the
tasks that were started with their times. -/
structure FrameService where
  queue : FrameQueue
  now : Nat := 0
  woken : Bool := true
  running : Option Nat := none
  known : List FrameTask := []
  cancelled : List FrameTask := []
  starts : List (Nat × Nat) := []

namespace FrameService

/-- What can happen to a service. Tasks are scheduled and cancelled by anyone, running tasks among
them. A driver that is woken may look for the earliest deadline although its boundary has come. -/
inductive Action
  | schedule (delay : Nat)
  | cancel (id : Nat)
  | pass (nanos : Nat)
  | look
  | notice
  | start
  | finish

/-- One action. The driver does nothing of its own while a task runs. -/
def act (s : FrameService) : Action → FrameService
  | .schedule delay =>
    { s with
      queue := (s.queue.schedule s.now delay).1
      woken := true
      known := s.known ++ [⟨(s.queue.schedule s.now delay).2, s.now + delay⟩] }
  | .cancel id =>
    { s with
      queue := s.queue.cancel id
      cancelled := s.cancelled ++ s.known.filter (·.id = id) }
  | .pass nanos => { s with now := s.now + nanos }
  | .look =>
    if s.running = none ∧ s.queue.batch = [] then
      { s with queue := s.queue.settle s.now, woken := false }
    else s
  | .notice =>
    if s.running = none ∧ s.queue.batch = [] ∧ s.woken then
      { s with queue := s.queue.aim s.now, woken := false }
    else s
  | .start =>
    match s.running, s.queue.proceed with
    | none, (queue, .run id) =>
      { s with queue, running := some id, starts := s.starts ++ [(id, s.now)] }
    | _, _ => s
  | .finish => { s with running := none }

/-- Actions in order. -/
def run (s : FrameService) (actions : List Action) : FrameService := actions.foldl act s

/-- A service that begins. -/
def opened (frame : Nat) : FrameService := { queue := { frame } }

/-- The tasks that were started, in order. -/
def startedIds (s : FrameService) : List Nat := s.starts.map (·.1)

/-- The tasks that batches have taken, in order: those that were started, and those that are left to
start. -/
def taken (s : FrameService) : List Nat := s.startedIds ++ s.queue.batch

/-- No task runs, and the driver waits: it has looked since the last task was scheduled, and the
boundary that it waits for, if any, has not come. -/
def IsIdle (s : FrameService) : Prop :=
  s.running = none ∧ s.woken = false ∧
    (s.queue.phase = .idle ∨ ∃ b, s.queue.phase = .asleep b ∧ s.now < b)

theorem run_append (s : FrameService) (as bs : List Action) :
    s.run (as ++ bs) = (s.run as).run bs := List.foldl_append

/-! ## Moves -/

/-- What an action can do. -/
inductive Move : FrameService → FrameService → Prop
  | stayed (s : FrameService) : Move s s
  | scheduled (s : FrameService) (delay : Nat) : Move s (s.act (.schedule delay))
  | withdrew (s : FrameService) (id : Nat) : Move s (s.act (.cancel id))
  | passed (s : FrameService) (nanos : Nat) : Move s (s.act (.pass nanos))
  | took {s : FrameService} {b : Nat} (free : s.queue.batch = []) (come : b ≤ s.now)
      (aimed : s.queue.phase = .asleep b ∨ s.queue.nextBoundary = some b) :
      Move s { s with queue := s.queue.takeDue b, woken := false }
  | aimed {s : FrameService} {phase : DriverPhase} (free : s.queue.batch = [])
      (aims : s.queue.Aims s.now phase) :
      Move s { s with queue := { s.queue with phase }, woken := false }
  | started {s : FrameService} {id : Nat} {rest : List Nat} (free : s.running = none)
      (next : s.queue.phase = .serving (id :: rest)) :
      Move s { s with
        queue := { s.queue with phase := .serving rest }
        running := some id
        starts := s.starts ++ [(id, s.now)] }
  | finished (s : FrameService) : Move s { s with running := none }

theorem move_look {s : FrameService} (free : s.queue.batch = []) {queue : FrameQueue}
    (looked : (∃ b ≤ s.now, (s.queue.phase = .asleep b ∨ s.queue.nextBoundary = some b) ∧
        queue = s.queue.takeDue b) ∨
      ∃ phase, s.queue.Aims s.now phase ∧ queue = { s.queue with phase }) :
    Move s { s with queue, woken := false } := by
  obtain ⟨b, come, aimed, rfl⟩ | ⟨phase, aims, rfl⟩ := looked
  · exact .took free come aimed
  · exact .aimed free aims

theorem move_start (s : FrameService) : Move s (s.act .start) := by
  unfold act
  dsimp only
  split
  · next queue id free eq =>
    unfold FrameQueue.proceed at eq
    split at eq
    · cases eq
    · cases eq
    · cases eq
    · next next =>
      cases eq
      exact .started free next
  · exact .stayed s

/-- **An action is a move.** -/
theorem move_act (s : FrameService) (a : Action) : Move s (s.act a) := by
  cases a with
  | schedule delay => exact .scheduled s delay
  | cancel id => exact .withdrew s id
  | pass nanos => exact .passed s nanos
  | look =>
    unfold act
    dsimp only
    split
    · next h => exact move_look h.2 (FrameQueue.settle_cases h.2 s.now)
    · exact .stayed s
  | notice =>
    unfold act
    dsimp only
    split
    · next h =>
      exact move_look h.2.1 ((FrameQueue.aim_cases s.queue s.now).imp_left
        fun ⟨b, come, next, eq⟩ => ⟨b, come, .inr next, eq⟩)
    · exact .stayed s
  | start => exact move_start s
  | finish => exact .finished s

/-- What every move keeps, a run keeps. -/
theorem keeps_run {P : FrameService → Prop} (h : ∀ {s s'}, Move s s' → P s → P s')
    {s : FrameService} (hs : P s) (actions : List Action) : P (s.run actions) := by
  induction actions generalizing s with
  | nil => exact hs
  | cons a actions ih => exact ih (h (move_act s a) hs)

end FrameService

end Cadence
