import Cadence.Proofs.Schedule.Apart

/-!
# Who decides whether a task runs

Between a sleeper that wakes and a cancellation of its task, the entry decides: whoever removes it
first has won, also while the task is still being scheduled.

* `TimerService.Kept.run_schedule`: the parts of scheduling a task, one after the other;
* `TimerService.Kept.mem_starts_act`: a task starts when its sleeper wakes, unless it was cancelled;
* `TimerService.Kept.wakes`, `TimerService.Kept.starts_at_last`: no sleeper is lost;
* `TimerService.Kept.running_run`: a task that runs is not interrupted;
* `TimerService.unmarked`, `TimerService.Kept.unmarked_cancel`: a cancellation that comes too late;
* `TimerService.Arbitrated`, **`TimerService.runs_unless_cancelled`**: at most one run of each task,
  and exact cancellation.
-/

namespace Cadence

namespace TimerService

variable {s s' : TimerService} {id : Nat}

theorem Kept.find?_spawning (h : Kept s) (delay : Nat) :
    (s.act (.reserve delay)).spawning.find? (·.id = s.queue.nextId) =
      some ⟨s.queue.nextId, delay, s.now⟩ := by
  have none : s.spawning.find? (·.id = s.queue.nextId) = none := by
    refine List.find?_eq_none.mpr fun (t : TimerTask) mem eq => ?_
    have old := (h.older t (h.unspawned t mem).1).1
    rw [decide_eq_true_eq] at eq
    exact Nat.ne_of_lt old eq
  have eq : (s.act (.reserve delay)).spawning =
      s.spawning ++ [⟨s.queue.nextId, delay, s.now⟩] := rfl
  rw [eq, List.find?_append, none]
  simp

theorem Kept.run_schedule (h : Kept s) (delay : Nat) : ∃ spawning recording,
    s.run [.reserve delay, .spawn s.queue.nextId, .record s.queue.nextId] =
      { s with
        queue := (s.queue.schedule delay).1
        spawning, recording
        known := s.known ++ [⟨s.queue.nextId, delay, s.now⟩] } := by
  have spawned : (s.act (.reserve delay)).act (.spawn s.queue.nextId) =
      { s.act (.reserve delay) with
        queue := (s.act (.reserve delay)).queue.spawn s.queue.nextId delay
        spawning := (s.act (.reserve delay)).spawning.filter (·.id ≠ s.queue.nextId)
        recording := s.recording ++ [s.queue.nextId] } := by
    rw [act.eq_def _ (.spawn s.queue.nextId)]
    dsimp only
    rw [h.find?_spawning delay]
    rfl
  refine ⟨(s.act (.reserve delay)).spawning.filter (·.id ≠ s.queue.nextId),
    (s.recording ++ [s.queue.nextId]).filter (· ≠ s.queue.nextId), ?_⟩
  show ((s.act (.reserve delay)).act (.spawn s.queue.nextId)).act (.record s.queue.nextId) = _
  rw [spawned, act.eq_def _ (.record s.queue.nextId)]
  dsimp only
  rw [if_pos (List.mem_append_right _ List.mem_cons_self)]
  rfl

/-! ## Starts -/

theorem Kept.unstarted_of_wakes (h : Kept s) (wakes : s.Wakes id) :
    id ∈ s.knownIds ∧ id ∉ s.startedIds := by
  obtain ⟨x, found, -⟩ := wakes
  obtain rfl : x.id = id := by simpa using List.find?_some found
  obtain ⟨t, known, same, -, -, unstarted, -⟩ := h.asleep x (List.mem_of_find?_eq_some found)
  rw [← same]
  exact ⟨List.mem_map_of_mem known, unstarted⟩

theorem Kept.look_of_wakes (h : Kept s) (wakes : s.Wakes id) : s.act (.look id) =
    if id ∉ s.cancelled then s.claim id else { s with queue := s.queue.dropSleeper id } := by
  obtain ⟨known, unstarted⟩ := h.unstarted_of_wakes wakes
  obtain ⟨x, found, come⟩ := wakes
  have pending : id ∈ s.queue.pendingIds ↔ id ∉ s.cancelled := by
    rw [h.mem_pendingIds]
    exact ⟨fun mem => mem.2.1, fun kept => ⟨known, kept, unstarted⟩⟩
  rcases look_cases s id with ⟨none, -⟩ | ⟨y, -, -, found', ⟨early, -⟩ | ⟨-, eq⟩⟩
  · rw [none] at found
    cases found
  · obtain rfl : x = y := Option.some.inj (found.symm.trans found')
    exact absurd come (Nat.not_le.mpr early)
  · rw [eq]
    by_cases kept : id ∉ s.cancelled
    · rw [if_pos kept, if_pos (pending.mpr kept)]
    · rw [if_neg kept, if_neg (mt pending.mp kept)]

theorem starts_act (s : TimerService) (a : Action) :
    (s.act a).starts = s.starts ∨ ∃ id, a = .look id ∧ s.Wakes id := by
  cases a with
  | look id =>
    rcases look_cases s id with ⟨-, eq⟩ | ⟨x, -, -, found, ⟨-, eq⟩ | ⟨come, -⟩⟩
    · exact .inl (congrArg starts eq)
    · exact .inl (by rw [eq])
    · exact .inr ⟨id, rfl, x, found, come⟩
  | spawn | record =>
    unfold act
    dsimp only
    split <;> exact .inl rfl
  | _ => exact .inl rfl

/-- **A task starts** exactly when its sleeper wakes and no cancellation has come before. -/
theorem Kept.mem_starts_act (h : Kept s) (a : Action) (id time : Nat) :
    (id, time) ∈ (s.act a).starts ↔ (id, time) ∈ s.starts ∨
      a = .look id ∧ s.Wakes id ∧ id ∉ s.cancelled ∧ time = s.now := by
  rcases starts_act s a with eq | ⟨i, rfl, wakes⟩
  · -- The history stays as it is, so no sleeper of a wanted task can have woken.
    rw [eq, iff_self_or]
    rintro ⟨rfl, wakes, kept, rfl⟩
    rw [h.look_of_wakes wakes, if_pos kept] at eq
    rw [← eq]
    exact List.mem_append_right _ List.mem_cons_self
  · rw [h.look_of_wakes wakes]
    by_cases kept : i ∉ s.cancelled
    · rw [if_pos kept]
      show _ ∈ s.starts ++ [(i, s.now)] ↔ _
      rw [List.mem_append, List.mem_singleton, Prod.mk.injEq]
      refine or_congr_right ⟨?_, ?_⟩
      · rintro ⟨rfl, rfl⟩
        exact ⟨rfl, wakes, kept, rfl⟩
      · rintro ⟨⟨⟩, -, -, rfl⟩
        exact ⟨rfl, rfl⟩
    · rw [if_neg kept, iff_self_or]
      rintro ⟨⟨⟩, -, kept', -⟩
      exact absurd kept' kept

/-- **No sleeper is lost.** A task that is neither cancelled nor started has one, which wakes now or
when the delay has passed since it looked at the clock. -/
theorem Kept.wakes (h : Kept s) {t : TimerTask} (known : t ∈ s.known) (spawned : t ∉ s.spawning)
    (kept : t.id ∉ s.cancelled) (unstarted : t.id ∉ s.startedIds) :
    s.Wakes t.id ∨ (s.run [.look t.id, .pass t.delay]).Wakes t.id ∧
      (s.run [.look t.id, .pass t.delay]).cancelled = s.cancelled := by
  obtain ⟨x, asleep, same⟩ := List.mem_map.mp (h.present t known spawned kept unstarted)
  have found := TimerQueue.find?_sleeper h.single asleep
  rw [same] at found
  rcases look_cases s t.id with ⟨none, -⟩ | ⟨y, -, -, found', ⟨-, looked⟩ | ⟨come, -⟩⟩
  · rw [none] at found
    cases found
  · -- The look has set the time, at most the delay from now, and no sleeper forgets its time.
    obtain rfl : x = y := Option.some.inj (found.symm.trans found')
    have eq : s.run [.look t.id, .pass t.delay] =
        { s with queue := s.queue.doze t.id (x.target s.now), now := s.now + t.delay } := by
      show (s.act (.look t.id)).act (.pass t.delay) = _
      rw [looked]
      rfl
    have mem := TimerQueue.mem_doze (x.target s.now) asleep same
    have single := (keeps_run (fun m h => m.keeps h) h [.look t.id, .pass t.delay]).single
    rw [eq] at single ⊢
    have dozes := TimerQueue.find?_sleeper single mem
    rw [same] at dozes
    exact .inr ⟨⟨_, dozes, (h.target known asleep same).2⟩, rfl⟩
  · exact .inl ⟨y, found', come⟩

theorem Kept.started_of_wakes (h : Kept s) (wakes : s.Wakes id) (kept : id ∉ s.cancelled) :
    id ∈ (s.act (.look id)).startedIds := by
  have starts := (h.mem_starts_act (.look id) id s.now).mpr (.inr ⟨rfl, wakes, kept, rfl⟩)
  exact List.mem_map_of_mem (f := (·.1)) starts

theorem Kept.started_act (h : Kept s) (a : Action) (started : id ∈ s.startedIds) :
    id ∈ (s.act a).startedIds := by
  obtain ⟨⟨i, time⟩, mem, rfl⟩ := List.mem_map.mp started
  exact List.mem_map_of_mem (f := (·.1)) ((h.mem_starts_act a i time).mpr (.inl mem))

theorem Kept.starts_at_last (h : Kept s) {t : TimerTask} (known : t ∈ s.known)
    (spawned : t ∉ s.spawning) (kept : t.id ∉ s.cancelled) (unstarted : t.id ∉ s.startedIds) :
    t.id ∈ (s.run [.look t.id, .pass t.delay, .look t.id]).startedIds := by
  have looked : Kept (s.act (.look t.id)) := (move_act s _).keeps h
  have passed : Kept (s.run [.look t.id, .pass t.delay]) :=
    (move_act _ (.pass t.delay)).keeps looked
  rcases h.wakes known spawned kept unstarted with wakes | ⟨wakes, same⟩
  · have started := looked.started_act (.pass t.delay) (h.started_of_wakes wakes kept)
    exact passed.started_act (.look t.id) started
  · rw [← same] at kept
    exact passed.started_of_wakes wakes kept

/-! ## Cancellations -/

theorem cancelled_act (s : TimerService) (a : Action) : s.cancelled ⊆ (s.act a).cancelled := by
  cases a with
  | cancel id => exact List.subset_append_left _ _
  | spawn | record | look =>
    unfold act
    dsimp only
    split <;> exact List.Subset.refl _
  | _ => exact List.Subset.refl _

theorem Kept.never_started (h : Kept s) (cancelled : id ∈ s.cancelled)
    (unstarted : id ∉ s.startedIds) (more : List Action) : id ∉ (s.run more).startedIds := by
  induction more generalizing s with
  | nil => exact unstarted
  | cons a more ih =>
    refine ih ((move_act s a).keeps h) (cancelled_act s a cancelled) fun started => ?_
    obtain ⟨⟨i, time⟩, mem, rfl⟩ := List.mem_map.mp started
    rcases (h.mem_starts_act a i time).mp mem with mem | ⟨-, -, kept, -⟩
    · exact unstarted (List.mem_map_of_mem mem)
    · exact kept cancelled

theorem Kept.running_cancel (h : Kept s) : (s.act (.cancel id)).running = s.running := by
  show (if s.queue.isRecorded id then s.running.filter (· ≠ id) else s.running) = s.running
  split
  · next recorded =>
    refine List.filter_eq_self.mpr fun i running => ?_
    rw [decide_eq_true_eq]
    rintro rfl
    have pending := TimerQueue.isPending_iff.mp (TimerQueue.isPending_of_isRecorded recorded)
    exact (h.mem_pendingIds.mp pending).2.2 (h.busy running)
  · rfl

/-- **A task that runs is not interrupted**: it runs until it finishes. -/
theorem Kept.running_run (h : Kept s) (running : id ∈ s.running) {more : List Action}
    (unfinished : .finish id ∉ more) : id ∈ (s.run more).running := by
  induction more generalizing s with
  | nil => exact running
  | cons a more ih =>
    rw [List.mem_cons, not_or] at unfinished
    refine ih ((move_act s a).keeps h) ?_ unfinished.2
    cases a with
    | cancel i =>
      rw [h.running_cancel]
      exact running
    | look i =>
      unfold act
      dsimp only
      split
      · exact List.mem_append_left _ running
      · exact running
    | finish i =>
      have other : id ≠ i := fun eq => unfinished.1 (by rw [eq])
      exact List.mem_filter.mpr ⟨running, by simpa using other⟩
    | spawn | record =>
      unfold act
      dsimp only
      split <;> exact running
    | _ => exact running

/-- The service without the list of its cancellations. -/
def unmarked (s : TimerService) : TimerService := { s with cancelled := [] }

theorem unmarked_act (s : TimerService) (a : Action) :
    (s.unmarked.act a).unmarked = (s.act a).unmarked := by
  cases a with
  | spawn | look =>
    unfold act
    dsimp only [unmarked]
    split <;> rfl
  | record =>
    unfold act
    dsimp only
    rw [apply_ite unmarked, apply_ite unmarked]
    rfl
  | _ => rfl

theorem unmarked_run (same : s.unmarked = s'.unmarked) (more : List Action) :
    (s.run more).unmarked = (s'.run more).unmarked := by
  induction more generalizing s s' with
  | nil => exact same
  | cons a more ih =>
    refine ih ?_
    rw [← unmarked_act s, ← unmarked_act s', same]

/-- **A cancellation that comes too late** does nothing, and one of a handle that nobody was given
does nothing either. -/
theorem Kept.unmarked_cancel (h : Kept s)
    (late : id ∉ s.knownIds ∨ id ∈ s.cancelled ∨ id ∈ s.startedIds) :
    (s.act (.cancel id)).unmarked = s.unmarked := by
  have free : id ∉ s.queue.pendingIds := by
    rw [h.mem_pendingIds]
    tauto
  show ({ s with
    queue := s.queue.cancel id
    running := if s.queue.isRecorded id then _ else s.running
    cancelled := [] } : TimerService) = _
  rw [TimerQueue.cancel_of_not_pending free, TimerQueue.isRecorded_of_not_pending free]
  rfl

theorem Kept.pendingCount (h : Kept s) : s.queue.pendingCount =
    (s.known.filter fun t => t.id ∉ s.cancelled ∧ t.id ∉ s.startedIds).length := by
  have length : s.queue.pendingCount = s.queue.pendingIds.length := (List.length_map _).symm
  rw [length, h.pending, knownIds, List.filter_map, List.length_map]
  rfl

/-! ## The arbiter -/

/-- Each task is started at most once, and not before its delay is over; its entry decides whether
it is started or cancelled, and a cancellation does nothing else. -/
structure Arbitrated (s : TimerService) : Prop where
  /-- No two tasks have the same handle. -/
  distinct : s.knownIds.Nodup
  /-- No task is started twice. -/
  once : s.startedIds.Nodup
  /-- What is started is a task whose delay is over. -/
  punctual : ∀ x ∈ s.starts, ∃ t ∈ s.known, t.id = x.1 ∧ t.since + t.delay ≤ x.2
  /-- A task is started when its sleeper wakes, exactly if no cancellation has come before. -/
  decided : ∀ a id time, (id, time) ∈ (s.act a).starts ↔
    (id, time) ∈ s.starts ∨ a = .look id ∧ s.Wakes id ∧ id ∉ s.cancelled ∧ time = s.now
  /-- The sleeper of a task that was not cancelled does wake. -/
  wakes : ∀ t ∈ s.known, t ∉ s.spawning → t.id ∉ s.cancelled → t.id ∉ s.startedIds →
    t.id ∈ (s.run [.look t.id, .pass t.delay, .look t.id]).startedIds
  /-- A task that was cancelled in time is never started. -/
  withdrawn : ∀ id ∈ s.cancelled, id ∉ s.startedIds → ∀ more, id ∉ (s.run more).startedIds
  /-- A task that is started runs until it finishes. -/
  uninterrupted : ∀ id, s.Wakes id → id ∉ s.cancelled → ∀ more, .finish id ∉ more →
    id ∈ ((s.act (.look id)).run more).running
  /-- A cancellation of a task that was started or cancelled, or of a handle that was not given,
  does nothing, now or later. -/
  late : ∀ id, id ∉ s.knownIds ∨ id ∈ s.cancelled ∨ id ∈ s.startedIds → ∀ more,
    ((s.act (.cancel id)).run more).unmarked = (s.run more).unmarked
  /-- A cancellation does nothing to the other tasks, now or later. -/
  apart : ∀ id j, j ≠ id → ∀ more, ((s.act (.cancel j)).run more).only id = (s.run more).only id
  /-- The tasks that are neither started nor cancelled are pending. -/
  counted : s.queue.pendingCount =
    (s.known.filter fun t => t.id ∉ s.cancelled ∧ t.id ∉ s.startedIds).length

theorem Kept.arbitrated (h : Kept s) : Arbitrated s where
  distinct := h.distinct
  once := h.once
  punctual := h.started
  decided := h.mem_starts_act
  wakes := fun t known spawned kept unstarted => h.starts_at_last known spawned kept unstarted
  withdrawn := fun id cancelled unstarted => h.never_started cancelled unstarted
  uninterrupted := fun id wakes kept more unfinished => by
    have claims : id ∈ (s.act (.look id)).running := by
      rw [h.look_of_wakes wakes, if_pos kept]
      exact List.mem_append_right _ List.mem_cons_self
    exact ((move_act s _).keeps h).running_run claims unfinished
  late := fun id late => unmarked_run (h.unmarked_cancel late)
  apart := fun id j other => only_run (only_act_other rfl other)
  counted := h.pendingCount

/-- **The entry is the arbiter** of whether a task is run or cancelled, in whatever order tasks are
scheduled, part by part, and cancelled, and sleepers look at the clock. -/
theorem runs_unless_cancelled (actions : List Action) : Arbitrated (run {} actions) :=
  (kept_run actions).arbitrated

/-- Two tasks are scheduled side by side. The sleeper of the first wakes before it is remembered, so
that its task runs and a cancellation comes too late; the second is cancelled before it is spawned,
and its sleeper wakes in vain. -/
example :
    let s := run {} [.reserve 0, .reserve 0, .cancel 2, .spawn 1, .spawn 2, .look 1, .record 1,
      .cancel 1, .look 2]
    s.startedIds = [1] ∧ s.running = [1] ∧ s.cancelled = [2, 1] ∧ s.queue.sleepers = [] ∧
      s.queue.pendingCount = 0 := by
  decide

end TimerService

end Cadence
