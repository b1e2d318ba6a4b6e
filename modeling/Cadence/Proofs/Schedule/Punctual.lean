import Cadence.Clock.Errand
import Cadence.Proofs.Schedule.Service

/-!
# Punctual frames

Batches are taken at boundaries that have come, and what stays behind is due later. So tasks run on
time, and in the order of their deadlines, no matter when they are scheduled and cancelled.

* `FrameService.Kept`: the invariant of a service and the tasks that its batches have taken;
* `FrameService.InOrder`: the invariant that needs boundaries which a word can hold;
* `FrameService.Move.keeps`: every move keeps both, by one lemma for each thing that can happen;
* `FrameService.exists_startedIds`: a batch is served without a break;
* **`FrameService.runs_on_time`**: what a service does on time.
-/

namespace Cadence.FrameService

/-- Every task that was scheduled is cancelled, or taken by a batch, or pending, and no task is
taken twice. `tasks` are those taken by batches, in order; their boundaries have come. -/
structure Kept (s : FrameService) (tasks : List FrameTask) : Prop where
  ids : tasks.map (·.id) = s.taken
  fresh : ∀ t ∈ s.known, t.id < s.queue.nextId
  distinct : (s.known.map (·.id)).Nodup
  once : ((tasks ++ s.queue.pending).map (·.id)).Nodup
  known : ∀ t ∈ tasks ++ s.queue.pending, t ∈ s.known
  everyone : ∀ t ∈ s.known, t ∈ s.cancelled ∨ t ∈ tasks ++ s.queue.pending
  come : ∀ t ∈ tasks, boundary s.queue.frame t.deadline ≤ s.now
  timely : ∀ x ∈ s.starts, ∃ t ∈ tasks, t.id = x.1 ∧ boundary s.queue.frame t.deadline ≤ x.2
  awaited : ∀ b, s.queue.phase = .asleep b →
    ∃ t ∈ s.known, boundary s.queue.frame t.deadline = b
  nothing : s.woken = false → s.queue.phase = .idle → s.queue.pending = []

/-- A word can hold the first boundary of every task. -/
def InRange (s : FrameService) : Prop :=
  ∀ t ∈ s.known, firstBoundary s.queue.frame t.deadline < Word.count

/-- Taken tasks are in order, and before all that are pending. A driver that waits and is not woken
does not oversleep. -/
structure InOrder (s : FrameService) (tasks : List FrameTask) : Prop where
  sorted : tasks.Pairwise FrameTask.Precedes
  ahead : ∀ t ∈ tasks, ∀ u ∈ s.queue.pending, t.Precedes u
  alert : s.woken = false → ∀ b, s.queue.phase = .asleep b →
    ∀ t ∈ s.queue.pending, b ≤ boundary s.queue.frame t.deadline

variable {s s' : FrameService} {tasks : List FrameTask}

/-! ## What happens to the queue -/

theorem nodup_concat {ts : List FrameTask} (distinct : (ts.map (·.id)).Nodup) {new : FrameTask}
    (older : ∀ t ∈ ts, t.id < new.id) : ((ts ++ [new]).map (·.id)).Nodup := by
  rw [List.map_append, List.nodup_append_comm]
  refine List.nodup_cons.mpr ⟨fun mem => ?_, distinct⟩
  obtain ⟨t, mem, eq⟩ := List.mem_map.mp mem
  exact Nat.ne_of_lt (older t mem) eq

theorem Kept.scheduled (h : Kept s tasks) (delay : Nat) : Kept (s.act (.schedule delay)) tasks := by
  let new : FrameTask := ⟨s.queue.nextId, s.now + delay⟩
  have older : ∀ t ∈ tasks ++ s.queue.pending, t.id < new.id := fun t mem =>
    h.fresh t (h.known t mem)
  have all : tasks ++ (s.queue.pending ++ [new]) = tasks ++ s.queue.pending ++ [new] :=
    (List.append_assoc _ _ _).symm
  refine { h with
    fresh := fun t mem => ?_
    distinct := nodup_concat h.distinct h.fresh
    once := ?_
    known := fun t mem => ?_
    everyone := fun t mem => ?_
    awaited := fun b asleep => ?_
    nothing := nofun }
  · rcases List.mem_append.mp mem with mem | mem
    · exact Nat.lt_succ_of_lt (h.fresh t mem)
    · rw [List.mem_singleton.mp mem]
      exact Nat.lt_succ_self _
  · show ((tasks ++ (s.queue.pending ++ [new])).map (·.id)).Nodup
    rw [all]
    exact nodup_concat h.once older
  · replace mem : t ∈ tasks ++ (s.queue.pending ++ [new]) := mem
    rw [all] at mem
    exact List.mem_append.mpr ((List.mem_append.mp mem).imp_left (h.known t))
  · show _ ∨ t ∈ tasks ++ (s.queue.pending ++ [new])
    rw [all]
    rcases List.mem_append.mp mem with mem | mem
    · exact (h.everyone t mem).imp_right (List.mem_append_left _)
    · exact .inr (List.mem_append_right _ mem)
  · obtain ⟨t, mem, eq⟩ := h.awaited b asleep
    exact ⟨t, List.mem_append_left _ mem, eq⟩

theorem Kept.withdrew (h : Kept s tasks) (id : Nat) : Kept (s.act (.cancel id)) tasks := by
  have fewer : (tasks ++ s.queue.pending.filter (·.id ≠ id)).Sublist (tasks ++ s.queue.pending) :=
    List.filter_sublist.append_left _
  refine { h with
    once := h.once.sublist (fewer.map _)
    known := fun t mem => h.known t (fewer.subset mem)
    everyone := fun t mem => ?_
    nothing := fun calm idle => ?_ }
  · by_cases eq : t.id = id
    · exact .inl (List.mem_append_right _ (List.mem_filter.mpr ⟨mem, by simpa using eq⟩))
    · rcases h.everyone t mem with gone | here
      · exact .inl (List.mem_append_left _ gone)
      · refine .inr (List.mem_append.mpr ((List.mem_append.mp here).imp_right fun pending => ?_))
        exact List.mem_filter.mpr ⟨pending, by simpa using eq⟩
  · show s.queue.pending.filter _ = []
    rw [h.nothing calm idle, List.filter_nil]

theorem Kept.passed (h : Kept s tasks) (nanos : Nat) : Kept (s.act (.pass nanos)) tasks :=
  { h with come := fun t mem => Nat.le_add_right_of_le (h.come t mem) }

theorem Kept.took (h : Kept s tasks) {b : Nat} (free : s.queue.batch = []) (come : b ≤ s.now) :
    Kept { s with queue := s.queue.takeDue b, woken := false } (tasks ++ s.queue.due b) := by
  have perm : (tasks ++ s.queue.due b ++ (s.queue.takeDue b).pending).Perm
      (tasks ++ s.queue.pending) := by
    rw [List.append_assoc]
    exact (FrameQueue.perm_takeDue s.queue b).append_left _
  refine { h with
    ids := ?_
    once := (perm.map _).nodup_iff.mpr h.once
    known := fun t mem => h.known t (perm.mem_iff.mp mem)
    everyone := fun t mem => (h.everyone t mem).imp_right perm.mem_iff.mpr
    come := fun t mem => ?_
    timely := fun x mem => ?_
    awaited := nofun
    nothing := nofun }
  · have before : tasks.map (·.id) = s.startedIds := by rw [h.ids, taken, free, List.append_nil]
    rw [List.map_append, before]
    rfl
  · rcases List.mem_append.mp mem with mem | mem
    · exact h.come t mem
    · exact Nat.le_trans (FrameQueue.mem_due.mp mem).2 come
  · obtain ⟨t, mem, eq⟩ := h.timely x mem
    exact ⟨t, List.mem_append_left _ mem, eq⟩

theorem Kept.aimed (h : Kept s tasks) {phase : DriverPhase} (free : s.queue.batch = [])
    (aims : s.queue.Aims s.now phase) :
    Kept { s with queue := { s.queue with phase }, woken := false } tasks := by
  refine { h with ids := ?_, awaited := fun b asleep => ?_, nothing := fun _ idle => ?_ }
  · rw [h.ids, taken, taken, free, FrameQueue.batch_of_aims aims]
    rfl
  · obtain ⟨rfl, -⟩ | ⟨c, rfl, next, -⟩ := aims
    · cases asleep
    · cases asleep
      obtain ⟨t, mem, eq, -⟩ := FrameQueue.exists_of_nextBoundary next
      exact ⟨t, h.known t (List.mem_append_right _ mem), eq⟩
  · obtain ⟨rfl, empty⟩ | ⟨c, rfl, -⟩ := aims
    · exact empty
    · cases idle

theorem Kept.started (h : Kept s tasks) {id : Nat} {rest : List Nat}
    (next : s.queue.phase = .serving (id :: rest)) :
    Kept { s with
      queue := { s.queue with phase := .serving rest }
      running := some id
      starts := s.starts ++ [(id, s.now)] } tasks := by
  have batch : s.queue.batch = id :: rest := by rw [FrameQueue.batch, next]
  have ids : tasks.map (·.id) = s.startedIds ++ id :: rest := by rw [h.ids, taken, batch]
  refine { h with
    ids := ?_
    timely := fun x mem => ?_
    awaited := fun b asleep => ?_
    nothing := fun _ idle => ?_ }
  · rw [ids, taken, startedIds, startedIds, List.map_append, List.append_assoc]
    rfl
  · rcases List.mem_append.mp mem with mem | mem
    · exact h.timely x mem
    · have here : id ∈ tasks.map (·.id) := by
        rw [ids]
        exact List.mem_append_right _ List.mem_cons_self
      obtain ⟨t, mem', eq⟩ := List.mem_map.mp here
      rw [List.mem_singleton.mp mem]
      exact ⟨t, mem', eq, h.come t mem'⟩
  · cases asleep
  · cases idle

/-! ## What happens to the order -/

section Order

variable (pos : 0 < s.queue.frame)
include pos

/-- A task that is scheduled now is due later than all that were taken. -/
theorem InOrder.scheduled (o : InOrder s tasks) (h : Kept s tasks) (range : s.InRange)
    (delay : Nat) : InOrder (s.act (.schedule delay)) tasks := by
  refine ⟨o.sorted, fun t mem u pending => ?_, nofun⟩
  rcases List.mem_append.mp pending with pending | new
  · exact o.ahead t mem u pending
  · have known := h.known t (List.mem_append_left _ mem)
    have past : t.deadline ≤ s.now := by
      have come := h.come t mem
      rw [(boundary_eq_iff pos).mpr (range t known)] at come
      exact Nat.le_trans (le_firstBoundary pos) come
    have older := h.fresh t known
    rw [List.mem_singleton.mp new]
    show t.deadline < s.now + delay ∨ t.deadline = s.now + delay ∧ t.id < s.queue.nextId
    omega

theorem InOrder.took (o : InOrder s tasks) (h : Kept s tasks) (range : s.InRange) (b : Nat) :
    InOrder { s with queue := s.queue.takeDue b, woken := false } (tasks ++ s.queue.due b) := by
  have distinct : (s.queue.pending.map (·.id)).Nodup := by
    have once := h.once
    rw [List.map_append] at once
    exact once.of_append_right
  refine ⟨List.pairwise_append.mpr ⟨o.sorted, FrameQueue.pairwise_due distinct,
    fun t mem u due => o.ahead t mem u (FrameQueue.mem_due.mp due).1⟩, fun t mem u behind => ?_,
    nofun⟩
  obtain ⟨pending, late⟩ := FrameQueue.mem_pending_takeDue.mp behind
  rcases List.mem_append.mp mem with mem | due
  · exact o.ahead t mem u pending
  · refine .inl (Nat.lt_of_not_le fun le => ?_)
    obtain ⟨here, early⟩ := FrameQueue.mem_due.mp due
    have mono := boundary_mono pos (range t (h.known t (List.mem_append_right _ here))) le
    omega

theorem InOrder.aimed (o : InOrder s tasks) (h : Kept s tasks) (range : s.InRange)
    {phase : DriverPhase} (aims : s.queue.Aims s.now phase) :
    InOrder { s with queue := { s.queue with phase }, woken := false } tasks := by
  refine ⟨o.sorted, o.ahead, fun _ b asleep u pending => ?_⟩
  obtain ⟨rfl, -⟩ | ⟨c, rfl, next, -⟩ := aims
  · cases asleep
  · cases asleep
    obtain ⟨t, -, rfl, least⟩ := FrameQueue.exists_of_nextBoundary next
    exact boundary_mono pos (range u (h.known u (List.mem_append_right _ pending)))
      (least u pending)

end Order

/-! ## Runs -/

theorem Move.frame_eq (m : Move s s') : s'.queue.frame = s.queue.frame := by
  cases m <;> rfl

theorem Move.known_subset (m : Move s s') : s.known ⊆ s'.known := by
  cases m with
  | scheduled => exact List.subset_append_left _ _
  | _ => exact List.Subset.refl _

theorem Move.inRange (m : Move s s') (range : s'.InRange) : s.InRange := by
  intro t mem
  rw [← m.frame_eq]
  exact range t (m.known_subset mem)

/-- **Every move keeps the invariants.** -/
theorem Move.keeps (m : Move s s') (h : Kept s tasks)
    (order : 0 < s.queue.frame → s.InRange → InOrder s tasks) :
    ∃ tasks', Kept s' tasks' ∧ (0 < s'.queue.frame → s'.InRange → InOrder s' tasks') := by
  cases m with
  | stayed => exact ⟨tasks, h, order⟩
  | scheduled delay =>
    refine ⟨tasks, h.scheduled delay, fun pos range => ?_⟩
    have pos' : 0 < s.queue.frame := pos
    have before : s.InRange := (Move.scheduled s delay).inRange range
    exact (order pos' before).scheduled pos' h before delay
  | withdrew id =>
    refine ⟨tasks, h.withdrew id, fun pos range => ?_⟩
    have o := order pos range
    exact ⟨o.sorted, fun t mem u pending => o.ahead t mem u (List.mem_of_mem_filter pending),
      fun calm b asleep t pending => o.alert calm b asleep t (List.mem_of_mem_filter pending)⟩
  | passed nanos =>
    refine ⟨tasks, h.passed nanos, fun pos range => ?_⟩
    have o := order pos range
    exact ⟨o.sorted, o.ahead, o.alert⟩
  | @took b free come aimed =>
    refine ⟨_, h.took free come, fun pos range => ?_⟩
    have pos' : 0 < s.queue.frame := pos
    exact (order pos' range).took pos' h range b
  | aimed free aims =>
    refine ⟨tasks, h.aimed free aims, fun pos range => ?_⟩
    have pos' : 0 < s.queue.frame := pos
    exact (order pos' range).aimed pos' h range aims
  | started free next =>
    refine ⟨tasks, h.started next, fun pos range => ?_⟩
    have o := order pos range
    exact ⟨o.sorted, o.ahead, nofun⟩
  | finished =>
    refine ⟨tasks, { h with }, fun pos range => ?_⟩
    have o := order pos range
    exact ⟨o.sorted, o.ahead, o.alert⟩

theorem kept_opened (frame : Nat) : Kept (opened frame) [] :=
  ⟨rfl, nofun, List.nodup_nil, List.nodup_nil, nofun, nofun, nofun, nofun, nofun, nofun⟩

theorem frame_run (s : FrameService) (actions : List Action) :
    (s.run actions).queue.frame = s.queue.frame :=
  keeps_run (P := fun s' => s'.queue.frame = s.queue.frame) (fun m eq => m.frame_eq.trans eq) rfl
    actions

theorem exists_kept (frame : Nat) (actions : List Action) :
    ∃ tasks, Kept ((opened frame).run actions) tasks ∧
      (0 < ((opened frame).run actions).queue.frame → ((opened frame).run actions).InRange →
        InOrder ((opened frame).run actions) tasks) := by
  refine keeps_run (P := fun s => ∃ tasks, Kept s tasks ∧
    (0 < s.queue.frame → s.InRange → InOrder s tasks))
    (fun {s s'} m ⟨tasks, h, order⟩ => m.keeps h order) ?_ actions
  exact ⟨[], kept_opened frame, fun _ _ => ⟨List.Pairwise.nil, nofun, nofun⟩⟩

/-! ## Batches -/

/-- **A batch is served without a break.** What is started from now on begins with the tasks that
are left of the batch, in their order. -/
theorem exists_startedIds (s : FrameService) (actions : List Action) :
    ∃ ids, (s.run actions).startedIds = s.startedIds ++ ids ∧
      (ids <+: s.queue.batch ∨ s.queue.batch <+: ids) := by
  have kept : ∃ ids, (s.run actions).startedIds = s.startedIds ++ ids ∧
      (ids ++ (s.run actions).queue.batch = s.queue.batch ∨ s.queue.batch <+: ids) := by
    refine keeps_run (P := fun s' => ∃ ids, s'.startedIds = s.startedIds ++ ids ∧
      (ids ++ s'.queue.batch = s.queue.batch ∨ s.queue.batch <+: ids))
      (fun {s₁ s₂} m ⟨ids, eq, served⟩ => ?_) ⟨[], by rw [List.append_nil], .inl rfl⟩ actions
    cases m with
    | took free =>
      refine ⟨ids, eq, .inr ?_⟩
      rcases served with rest | all
      · have all : ids = s.queue.batch := by rw [← rest, free, List.append_nil]
        exact all ▸ List.prefix_rfl
      · exact all
    | aimed free aims =>
      refine ⟨ids, eq, served.imp_left fun rest => ?_⟩
      rw [← rest, free, FrameQueue.batch_of_aims aims]
    | @started id rest free next =>
      refine ⟨ids ++ [id], ?_, ?_⟩
      · rw [← List.append_assoc, ← eq, startedIds, startedIds, List.map_append]
        rfl
      · rcases served with left | all
        · refine .inl ?_
          rw [← left, FrameQueue.batch, FrameQueue.batch, next, List.append_assoc]
          rfl
        · exact .inr (all.trans (List.prefix_append _ _))
    | _ => exact ⟨ids, eq, served⟩
  obtain ⟨ids, eq, rest | all⟩ := kept
  · exact ⟨ids, eq, .inl ⟨_, rest⟩⟩
  · exact ⟨ids, eq, .inr all⟩

theorem Move.startedIds_eq (m : Move s s') (free : s.queue.batch = []) :
    s'.startedIds = s.startedIds := by
  cases m with
  | started _ next =>
    rw [FrameQueue.batch, next] at free
    cases free
  | _ => rfl

theorem Kept.exists_boundary (h : Kept s tasks) (m : Move s s') (free : s.queue.batch = [])
    (busy : s'.queue.batch ≠ []) :
    ∃ b ≤ s.now, (∃ t ∈ s.known, boundary s.queue.frame t.deadline = b) ∧
      ∀ t ∈ s.queue.pending,
        t.id ∈ s'.queue.batch ↔ boundary s.queue.frame t.deadline ≤ b := by
  cases m with
  | @took b _ come aimed =>
    refine ⟨b, come, ?_, fun t pending => ?_⟩
    · rcases aimed with asleep | next
      · exact h.awaited b asleep
      · obtain ⟨t, mem, eq, -⟩ := FrameQueue.exists_of_nextBoundary next
        exact ⟨t, h.known t (List.mem_append_right _ mem), eq⟩
    · show t.id ∈ (s.queue.due b).map (·.id) ↔ _
      refine ⟨fun mem => ?_, fun early => ?_⟩
      · obtain ⟨u, due, eq⟩ := List.mem_map.mp mem
        obtain ⟨here, early⟩ := FrameQueue.mem_due.mp due
        have same := List.inj_on_of_nodup_map h.distinct
          (h.known u (List.mem_append_right _ here))
          (h.known t (List.mem_append_right _ pending)) eq
        exact same ▸ early
      · exact List.mem_map_of_mem (FrameQueue.mem_due.mpr ⟨pending, early⟩)
  | aimed _ aims => exact absurd (FrameQueue.batch_of_aims aims) busy
  | started _ next =>
    rw [FrameQueue.batch, next] at free
    cases free
  | _ => exact absurd free busy

/-! ## On time -/

/-- What a service does on time. No task starts before its first boundary. When the driver is idle,
every task whose first boundary has come has been run, unless it was cancelled. Pending tasks whose
boundaries are at or before the one that is served are run together, with no other task between
them. Tasks are started in the order of their deadlines and ids. -/
structure Punctual (s : FrameService) : Prop where
  notEarly : ∀ t ∈ s.known, ∀ time, (t.id, time) ∈ s.starts →
    firstBoundary s.queue.frame t.deadline ≤ time
  noneLeft : s.IsIdle → ∀ t ∈ s.known, firstBoundary s.queue.frame t.deadline ≤ s.now →
    t ∉ s.cancelled → t.id ∈ s.startedIds
  together : ∀ a, s.queue.batch = [] → (s.act a).queue.batch ≠ [] →
    ∃ b ≤ s.now, (∃ t ∈ s.known, firstBoundary s.queue.frame t.deadline = b) ∧
      (∀ t ∈ s.queue.pending,
        t.id ∈ (s.act a).queue.batch ↔ firstBoundary s.queue.frame t.deadline ≤ b) ∧
      ∀ more, ∃ ids, ((s.act a).run more).startedIds = s.startedIds ++ ids ∧
        (ids <+: (s.act a).queue.batch ∨ (s.act a).queue.batch <+: ids)
  ordered : ∃ tasks : List FrameTask, tasks.map (·.id) = s.startedIds ∧
    (∀ t ∈ tasks, t ∈ s.known) ∧ tasks.Pairwise FrameTask.Precedes

theorem IsIdle.batch_eq (idle : s.IsIdle) : s.queue.batch = [] := by
  obtain ⟨-, -, waits | ⟨b, waits, -⟩⟩ := idle <;> rw [FrameQueue.batch, waits]

theorem Kept.nodup_startedIds (h : Kept s tasks) : s.startedIds.Nodup := by
  have once := h.once
  rw [List.map_append, h.ids, taken] at once
  exact once.of_append_left.of_append_left

theorem Kept.punctual (h : Kept s tasks) (pos : 0 < s.queue.frame) (range : s.InRange)
    (o : InOrder s tasks) : s.Punctual := by
  have first : ∀ t ∈ s.known,
      boundary s.queue.frame t.deadline = firstBoundary s.queue.frame t.deadline :=
    fun t mem => (boundary_eq_iff pos).mpr (range t mem)
  have here : ∀ t ∈ tasks, t ∈ s.known := fun t mem => h.known t (List.mem_append_left _ mem)
  refine ⟨fun t known time start => ?_, fun idle t known come kept => ?_,
    fun a free busy => ?_, ?_⟩
  · obtain ⟨u, mem, eq, early⟩ := h.timely _ start
    have same := List.inj_on_of_nodup_map h.distinct (here u mem) known eq
    rw [← first t known, ← same]
    exact early
  · have taken : t ∈ tasks := by
      rcases List.mem_append.mp ((h.everyone t known).resolve_left kept) with mem | pending
      · exact mem
      · obtain ⟨-, calm, nothing | ⟨b, asleep, wait⟩⟩ := idle
        · rw [h.nothing calm nothing] at pending
          cases pending
        · have late := o.alert calm b asleep t pending
          rw [first t known] at late
          omega
    have mem : t.id ∈ tasks.map (·.id) := List.mem_map_of_mem taken
    rwa [h.ids, FrameService.taken, idle.batch_eq, List.append_nil] at mem
  · obtain ⟨b, come, ⟨u, known, eq⟩, iff⟩ := h.exists_boundary (move_act s a) free busy
    refine ⟨b, come, ⟨u, known, (first u known).symm.trans eq⟩, fun t pending => ?_,
      fun more => ?_⟩
    · rw [iff t pending, first t (h.known t (List.mem_append_right _ pending))]
    · rw [← (move_act s a).startedIds_eq free]
      exact exists_startedIds (s.act a) more
  · refine ⟨tasks.take s.startedIds.length, ?_, fun t mem => here t (List.mem_of_mem_take mem),
      o.sorted.sublist (List.take_sublist _ _)⟩
    rw [List.map_take, h.ids, FrameService.taken, List.take_left]

/-- **A service runs its tasks on time.** No task is started twice. If a word can hold the first
boundary of every task that was scheduled, then no task starts before its first boundary, an idle
driver has left out none whose boundary has come, batches are complete, and tasks start in the order
of their deadlines and ids. -/
theorem runs_on_time {frame : Nat} (pos : 0 < frame) (actions : List Action) :
    let s := (opened frame).run actions
    s.queue.frame = frame ∧ s.startedIds.Nodup ∧
      ((∀ t ∈ s.known, firstBoundary frame t.deadline < Word.count) → s.Punctual) := by
  obtain ⟨tasks, h, order⟩ := exists_kept frame actions
  have eq : ((opened frame).run actions).queue.frame = frame := frame_run _ _
  refine ⟨eq, h.nodup_startedIds, fun range => ?_⟩
  have inRange : ((opened frame).run actions).InRange := by
    unfold InRange
    rwa [eq]
  rw [← eq] at pos
  exact h.punctual pos inRange (order pos inRange)

/-- Four tasks in frames of 16 ms: the second comes before the first in their common frame, the
third is cancelled, and the last is scheduled by a running task and waits for the next batch. -/
def fourTasks : List Action :=
  [.schedule 20000000, .schedule 17000000, .schedule 40000000, .look, .pass 32000000, .look, .start,
    .schedule 0, .cancel 3, .pass 5000000, .finish, .start, .finish, .look, .start, .finish, .look]

theorem runs_on_time_fourTasks :
    let s := (opened 16000000).run fourTasks
    (∀ t ∈ s.known, firstBoundary 16000000 t.deadline < Word.count) ∧
      s.starts = [(2, 32000000), (1, 37000000), (4, 37000000)] ∧ s.Punctual := by
  intro s
  have known : ((opened 16000000).run fourTasks).known =
      [⟨1, 20000000⟩, ⟨2, 17000000⟩, ⟨3, 40000000⟩, ⟨4, 32000000⟩] := by cbv
  have starts : ((opened 16000000).run fourTasks).starts =
      [(2, 32000000), (1, 37000000), (4, 37000000)] := by cbv
  have range : ∀ t ∈ s.known, firstBoundary 16000000 t.deadline < Word.count := by
    rw [show s.known = _ from known]
    decide
  refine ⟨range, starts, ?_⟩
  exact (runs_on_time (by decide) fourTasks).2.2 range

/-- A task with a far deadline, and a look at the clock after 291 ms. -/
def farTask : List Action := [.schedule 18446744073709000000, .pass 291000000, .look, .start]

/-- The deadline fits a word and its first boundary does not: the task is run after 291 ms, instead
of 584 years, and so is an errand with this deadline. -/
theorem early_of_farDeadline :
    let s := (opened 1000000000).run farTask
    let l := ((Loop.create (.frames { frame := 1000000000 }) ({} : Errands)).send "far"
      18446744073709 0).1
    (∀ t ∈ s.known, t.deadline < Word.count) ∧ ¬ s.Punctual ∧
      (l.advance Errands.program 1000).program.notes = [(291, "far")] := by
  intro s l
  have frame : s.queue.frame = 1000000000 := frame_run _ _
  have known : ((opened 1000000000).run farTask).known = [⟨1, 18446744073709000000⟩] := by cbv
  have starts : ((opened 1000000000).run farTask).starts = [(1, 291000000)] := by cbv
  refine ⟨?_, fun punctual => ?_, by cbv⟩
  · rw [show s.known = _ from known]
    decide
  · have early := punctual.notEarly ⟨1, 18446744073709000000⟩
      (by rw [show s.known = _ from known]; exact List.mem_cons_self) 291000000
      (by rw [show s.starts = _ from starts]; exact List.mem_cons_self)
    rw [frame] at early
    exact absurd early (by decide)

end Cadence.FrameService
