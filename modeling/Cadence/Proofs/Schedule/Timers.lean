import Cadence.Schedule.Timer
import Mathlib.Data.List.Nodup

/-!
# Timers in service

A timer queue in service: a task is scheduled in three parts, between which anything can happen, and
every sleeper looks at the clock when it likes. A service keeps a history, and it is changed by
actions alone, so that its runs are lists of actions.

* `TimerQueue.pendingIds`: the tasks with entries, and what becomes of them;
* `TimerQueue.look_cases`: what a look at the clock comes to;
* `TimerService`, `TimerService.act`, `TimerService.run`;
* `TimerService.Move`: all that an action can do, each with the condition under which it is done;
* **`TimerService.move_act`**: an action is a move;
* `TimerService.Kept`, **`TimerService.Move.keeps`**, `TimerService.kept_run`: the invariant.
-/

namespace Cadence

/-- The time that a sleeper waits for when it looks at the clock. -/
def Sleeper.target (x : Sleeper) (now : Nat) : Nat := x.due.getD (now + x.delay)

namespace TimerQueue

variable {q : TimerQueue} {id now : Nat} {x : Sleeper}

/-- The tasks that have an entry. -/
def pendingIds (q : TimerQueue) : List Nat := q.entries.map (·.id)

/-- The tasks that have a sleeper. -/
def sleeperIds (q : TimerQueue) : List Nat := q.sleepers.map (·.id)

/-- The entry of a task remembers its sleeper. -/
def isRecorded (q : TimerQueue) (id : Nat) : Bool := q.entries.any fun e => e.id = id && e.recorded

/-- A sleeper knows the time to wait for. -/
def doze (q : TimerQueue) (id due : Nat) : TimerQueue :=
  { q with sleepers := q.sleepers.map fun x => if x.id = id then { x with due := some due } else x }

/-! ## Entries -/

theorem isPending_iff : q.isPending id = true ↔ id ∈ q.pendingIds := by
  simp [isPending, pendingIds]

theorem isPending_of_isRecorded (h : q.isRecorded id = true) : q.isPending id = true := by
  obtain ⟨e, mem, eq⟩ := List.any_eq_true.mp h
  exact List.any_eq_true.mpr ⟨e, mem, (Bool.and_eq_true_iff.mp eq).1⟩

theorem pendingIds_reserve : q.reserve.1.pendingIds = q.pendingIds ++ [q.nextId] := List.map_append

theorem pendingIds_record : (q.record id).pendingIds = q.pendingIds := by
  unfold pendingIds record
  rw [List.map_map]
  refine List.map_congr_left fun e _ => ?_
  dsimp only [Function.comp_apply]
  split <;> rfl

theorem pendingIds_dropEntry : (q.dropEntry id).pendingIds = q.pendingIds.filter (· ≠ id) :=
  (List.filter_map (p := fun i : Nat => decide (i ≠ id))).symm

theorem cancel_eq : q.cancel id =
    if q.isRecorded id then (q.dropEntry id).dropSleeper id else q.dropEntry id := rfl

theorem pendingIds_cancel : (q.cancel id).pendingIds = q.pendingIds.filter (· ≠ id) := by
  rw [cancel_eq]
  split <;> exact pendingIds_dropEntry

theorem nextId_cancel : (q.cancel id).nextId = q.nextId := by
  rw [cancel_eq]
  split <;> rfl

theorem sleepers_cancel : (q.cancel id).sleepers = q.sleepers ∨
    (q.cancel id).sleepers = q.sleepers.filter (·.id ≠ id) := by
  rw [cancel_eq]
  split
  · exact .inr rfl
  · exact .inl rfl

theorem sleepers_cancel_sublist : (q.cancel id).sleepers.Sublist q.sleepers := by
  have either := @sleepers_cancel q id
  rcases either with eq | eq <;> rw [eq]
  exact List.filter_sublist

theorem dropEntry_of_not_pending (free : id ∉ q.pendingIds) : q.dropEntry id = q := by
  unfold dropEntry
  rw [List.filter_eq_self.mpr]
  intro e mem
  rw [decide_eq_true_eq]
  rintro rfl
  exact free (List.mem_map_of_mem mem)

theorem isRecorded_of_not_pending (free : id ∉ q.pendingIds) : q.isRecorded id = false := by
  cases recorded : q.isRecorded id with
  | false => rfl
  | true => exact absurd (isPending_iff.mp (isPending_of_isRecorded recorded)) free

theorem cancel_of_not_pending (free : id ∉ q.pendingIds) : q.cancel id = q := by
  rw [cancel_eq, isRecorded_of_not_pending free]
  exact dropEntry_of_not_pending free

/-! ## Sleepers -/

theorem sleeperIds_spawn {delay : Nat} :
    (q.spawn id delay).sleeperIds = q.sleeperIds ++ [id] := List.map_append

theorem sleeperIds_dropSleeper : (q.dropSleeper id).sleeperIds = q.sleeperIds.filter (· ≠ id) :=
  (List.filter_map (p := fun i : Nat => decide (i ≠ id))).symm

theorem mem_sleeperIds_cancel {i : Nat} (mem : i ∈ q.sleeperIds) (other : i ≠ id) :
    i ∈ (q.cancel id).sleeperIds := by
  rw [cancel_eq]
  split
  · rw [sleeperIds_dropSleeper]
    exact List.mem_filter.mpr ⟨mem, by simpa using other⟩
  · exact mem

theorem sleeperIds_doze {due : Nat} : (q.doze id due).sleeperIds = q.sleeperIds := by
  unfold sleeperIds doze
  rw [List.map_map]
  refine List.map_congr_left fun x _ => ?_
  dsimp only [Function.comp_apply]
  split <;> rfl

theorem mem_doze (due : Nat) (mem : x ∈ q.sleepers) (eq : x.id = id) :
    { x with due := some due } ∈ (q.doze id due).sleepers :=
  List.mem_map.mpr ⟨x, mem, if_pos eq⟩

theorem mem_sleepers_doze {due : Nat} (mem : x ∈ (q.doze id due).sleepers) :
    (∃ y ∈ q.sleepers, y.id = id ∧ x = { y with due := some due }) ∨
      x ∈ q.sleepers ∧ x.id ≠ id := by
  obtain ⟨y, asleep, rfl⟩ := List.mem_map.mp mem
  by_cases eq : y.id = id
  · rw [if_pos eq]
    exact .inl ⟨y, asleep, eq, rfl⟩
  · rw [if_neg eq]
    exact .inr ⟨asleep, eq⟩

/-! ## Looks at the clock -/

/-- **A look at the clock** finds no sleeper, or too early a time, or it wakes the sleeper. -/
theorem look_cases (q : TimerQueue) (now id : Nat) :
    (q.sleepers.find? (·.id = id) = none ∧ q.look now id = (q, .gone)) ∨
      ∃ x, q.sleepers.find? (·.id = id) = some x ∧
        (now < x.target now ∧
            q.look now id = (q.doze id (x.target now), .asleep (x.target now)) ∨
          x.target now ≤ now ∧ q.look now id = q.wake id) := by
  unfold look
  cases found : q.sleepers.find? (·.id = id) with
  | none => exact .inl ⟨rfl, rfl⟩
  | some x =>
    refine .inr ⟨x, rfl, ?_⟩
    dsimp only
    by_cases come : x.due.getD (now + x.delay) ≤ now
    · rw [if_pos come]
      exact .inr ⟨come, rfl⟩
    · rw [if_neg come]
      exact .inl ⟨Nat.not_le.mp come, rfl⟩

theorem find?_sleeper (distinct : q.sleeperIds.Nodup) (mem : x ∈ q.sleepers) :
    q.sleepers.find? (·.id = x.id) = some x := by
  cases found : q.sleepers.find? (·.id = x.id) with
  | none => simpa using List.find?_eq_none.mp found x mem
  | some y =>
    have same : y.id = x.id := by simpa using List.find?_some found
    rw [List.inj_on_of_nodup_map distinct (List.mem_of_find?_eq_some found) mem same]

end TimerQueue

/-! ## Services -/

/-- A task that was scheduled: its handle, its delay, and the time when it was given the handle. -/
structure TimerTask where
  id : Nat
  delay : Nat
  since : Nat
deriving DecidableEq, Repr

/-- A timer queue in service. Of the tasks that are being scheduled, `spawning` lists those that
have an entry and no sleeper yet, and `recording` those whose sleeper is not remembered yet;
`running` lists the tasks that sleepers have started. The history lists the tasks that were given
handles, those that were cancelled since, and those that were started, with their times. -/
structure TimerService where
  queue : TimerQueue := {}
  now : Nat := 0
  spawning : List TimerTask := []
  recording : List Nat := []
  running : List Nat := []
  known : List TimerTask := []
  cancelled : List Nat := []
  starts : List (Nat × Nat) := []

namespace TimerService

/-- What can happen to a service. -/
inductive Action
  | reserve (delay : Nat)
  | spawn (id : Nat)
  | record (id : Nat)
  | cancel (id : Nat)
  | look (id : Nat)
  | finish (id : Nat)
  | pass (ms : Nat)

/-- The handles that were given. -/
def knownIds (s : TimerService) : List Nat := s.known.map (·.id)

/-- The tasks that were started, in order. -/
def startedIds (s : TimerService) : List Nat := s.starts.map (·.1)

/-- One action. The parts of scheduling a task come in their order. A cancellation that finds the
sleeper in the entry stops it in whatever it does, even if it runs the task. -/
def act (s : TimerService) : Action → TimerService
  | .reserve delay =>
    let task : TimerTask := ⟨s.queue.reserve.2, delay, s.now⟩
    { s with
      queue := s.queue.reserve.1
      spawning := s.spawning ++ [task]
      known := s.known ++ [task] }
  | .spawn id =>
    match s.spawning.find? (·.id = id) with
    | none => s
    | some t =>
      { s with
        queue := s.queue.spawn id t.delay
        spawning := s.spawning.filter (·.id ≠ id)
        recording := s.recording ++ [id] }
  | .record id =>
    if id ∈ s.recording then
      { s with queue := s.queue.record id, recording := s.recording.filter (· ≠ id) }
    else s
  | .cancel id =>
    { s with
      queue := s.queue.cancel id
      running := if s.queue.isRecorded id then s.running.filter (· ≠ id) else s.running
      cancelled := s.cancelled ++ s.knownIds.filter (· = id) }
  | .look id =>
    match s.queue.look s.now id with
    | (queue, .claimed) =>
      { s with queue, running := s.running ++ [id], starts := s.starts ++ [(id, s.now)] }
    | (queue, _) => { s with queue }
  | .finish id => { s with running := s.running.filter (· ≠ id) }
  | .pass ms => { s with now := s.now + ms }

/-- Actions in order. -/
def run (s : TimerService) (actions : List Action) : TimerService := actions.foldl act s

theorem run_append (s : TimerService) (before after : List Action) :
    s.run (before ++ after) = (s.run before).run after := List.foldl_append

/-- The time of a sleeper has come, so that a look at the clock wakes it. -/
def Wakes (s : TimerService) (id : Nat) : Prop :=
  ∃ x, s.queue.sleepers.find? (·.id = id) = some x ∧ x.target s.now ≤ s.now

/-! ## Moves -/

/-- The service when a sleeper starts its task. -/
def claim (s : TimerService) (id : Nat) : TimerService :=
  { s with
    queue := (s.queue.dropEntry id).dropSleeper id
    running := s.running ++ [id]
    starts := s.starts ++ [(id, s.now)] }

/-- What an action can do. -/
inductive Move : TimerService → TimerService → Prop
  | stayed (s : TimerService) : Move s s
  | reserved (s : TimerService) (delay : Nat) : Move s (s.act (.reserve delay))
  | spawned {s : TimerService} {t : TimerTask} (next : t ∈ s.spawning) :
      Move s { s with
        queue := s.queue.spawn t.id t.delay
        spawning := s.spawning.filter (·.id ≠ t.id)
        recording := s.recording ++ [t.id] }
  | recorded (s : TimerService) (id : Nat) :
      Move s { s with queue := s.queue.record id, recording := s.recording.filter (· ≠ id) }
  | withdrew (s : TimerService) (id : Nat) : Move s (s.act (.cancel id))
  | dozed {s : TimerService} {x : Sleeper} (asleep : x ∈ s.queue.sleepers) :
      Move s { s with queue := s.queue.doze x.id (x.target s.now) }
  | claimed {s : TimerService} {x : Sleeper} (asleep : x ∈ s.queue.sleepers)
      (come : x.target s.now ≤ s.now) (pending : x.id ∈ s.queue.pendingIds) :
      Move s (s.claim x.id)
  | gone {s : TimerService} {x : Sleeper} (asleep : x ∈ s.queue.sleepers)
      (free : x.id ∉ s.queue.pendingIds) : Move s { s with queue := s.queue.dropSleeper x.id }
  | finished (s : TimerService) (id : Nat) : Move s (s.act (.finish id))
  | passed (s : TimerService) (ms : Nat) : Move s (s.act (.pass ms))

theorem look_cases (s : TimerService) (id : Nat) :
    s.queue.sleepers.find? (·.id = id) = none ∧ s.act (.look id) = s ∨
      ∃ x ∈ s.queue.sleepers, x.id = id ∧ s.queue.sleepers.find? (·.id = id) = some x ∧
        (s.now < x.target s.now ∧
            s.act (.look id) = { s with queue := s.queue.doze id (x.target s.now) } ∨
          x.target s.now ≤ s.now ∧ s.act (.look id) =
            if id ∈ s.queue.pendingIds then s.claim id
            else { s with queue := s.queue.dropSleeper id }) := by
  dsimp only [act]
  rcases s.queue.look_cases s.now id with ⟨none, eq⟩ | ⟨x, found, looked⟩
  · rw [eq]
    exact .inl ⟨none, rfl⟩
  · have same : x.id = id := by simpa using List.find?_some found
    refine .inr ⟨x, List.mem_of_find?_eq_some found, same, found, ?_⟩
    refine looked.imp (fun ⟨early, eq⟩ => ⟨early, by rw [eq]⟩) (fun ⟨come, eq⟩ => ⟨come, ?_⟩)
    rw [eq, TimerQueue.wake]
    by_cases pending : id ∈ s.queue.pendingIds
    · rw [if_pos pending, if_pos (TimerQueue.isPending_iff.mpr pending)]
      rfl
    · rw [if_neg pending, if_neg (mt TimerQueue.isPending_iff.mp pending),
        TimerQueue.dropEntry_of_not_pending pending]

theorem move_look (s : TimerService) (id : Nat) : Move s (s.act (.look id)) := by
  obtain ⟨-, eq⟩ | ⟨x, asleep, rfl, -, ⟨-, eq⟩ | ⟨come, eq⟩⟩ := look_cases s id
  · rw [eq]
    exact .stayed s
  · rw [eq]
    exact .dozed asleep
  · rw [eq]
    split
    · next pending => exact .claimed asleep come pending
    · next free => exact .gone asleep free

/-- **An action is a move.** -/
theorem move_act (s : TimerService) (a : Action) : Move s (s.act a) := by
  cases a with
  | reserve delay => exact .reserved s delay
  | spawn id =>
    unfold act
    dsimp only
    split
    · exact .stayed s
    · next t found =>
      obtain rfl : t.id = id := by simpa using List.find?_some found
      exact .spawned (List.mem_of_find?_eq_some found)
  | record id =>
    unfold act
    dsimp only
    split
    · exact .recorded s id
    · exact .stayed s
  | cancel id => exact .withdrew s id
  | look id => exact move_look s id
  | finish id => exact .finished s id
  | pass ms => exact .passed s ms

/-- What every move keeps, a run keeps. -/
theorem keeps_run {P : TimerService → Prop} (h : ∀ {s s'}, Move s s' → P s → P s')
    {s : TimerService} (hs : P s) (actions : List Action) : P (s.run actions) := by
  induction actions generalizing s with
  | nil => exact hs
  | cons a actions ih => exact ih (h (move_act s a) hs)

/-! ## The invariant -/

/-- The tasks that are neither cancelled nor started have the entries, in the order of their
handles, and from their spawning on they have a sleeper. A sleeper waits until the delay of its task
is over, and it ends when it starts the task. -/
structure Kept (s : TimerService) : Prop where
  older : ∀ t ∈ s.known, t.id < s.queue.nextId ∧ t.since ≤ s.now
  distinct : s.knownIds.Nodup
  withdrawn : s.cancelled ⊆ s.knownIds
  pending : s.queue.pendingIds = s.knownIds.filter fun id => id ∉ s.cancelled ∧ id ∉ s.startedIds
  unspawned : ∀ t ∈ s.spawning, t ∈ s.known ∧ t.id ∉ s.startedIds
  single : s.queue.sleeperIds.Nodup
  asleep : ∀ x ∈ s.queue.sleepers, ∃ t ∈ s.known, t.id = x.id ∧ t.delay = x.delay ∧
    t ∉ s.spawning ∧ t.id ∉ s.startedIds ∧
      ∀ due, x.due = some due → t.since + t.delay ≤ due ∧ due ≤ s.now + t.delay
  present : ∀ t ∈ s.known, t ∉ s.spawning → t.id ∉ s.cancelled → t.id ∉ s.startedIds →
    t.id ∈ s.queue.sleeperIds
  started : ∀ x ∈ s.starts, ∃ t ∈ s.known, t.id = x.1 ∧ t.since + t.delay ≤ x.2
  once : s.startedIds.Nodup
  busy : s.running ⊆ s.startedIds

variable {s s' : TimerService}

theorem Kept.eq_of_id (h : Kept s) {t u : TimerTask} (ht : t ∈ s.known) (hu : u ∈ s.known)
    (eq : t.id = u.id) : t = u := List.inj_on_of_nodup_map h.distinct ht hu eq

theorem Kept.known_of_started (h : Kept s) : s.startedIds ⊆ s.knownIds := by
  intro id mem
  obtain ⟨x, started, rfl⟩ := List.mem_map.mp mem
  obtain ⟨t, known, eq, -⟩ := h.started x started
  exact List.mem_map.mpr ⟨t, known, eq⟩

theorem Kept.mem_pendingIds (h : Kept s) {id : Nat} : id ∈ s.queue.pendingIds ↔
    id ∈ s.knownIds ∧ id ∉ s.cancelled ∧ id ∉ s.startedIds := by
  rw [h.pending, List.mem_filter, decide_eq_true_eq]

theorem Kept.task_of_sleeper (h : Kept s) {t : TimerTask} (known : t ∈ s.known) {x : Sleeper}
    (asleep : x ∈ s.queue.sleepers) (eq : x.id = t.id) : t.delay = x.delay ∧ t ∉ s.spawning ∧
      t.id ∉ s.startedIds ∧ ∀ due, x.due = some due → t.since + t.delay ≤ due ∧
        due ≤ s.now + t.delay := by
  obtain ⟨u, known', same, rest⟩ := h.asleep x asleep
  obtain rfl := h.eq_of_id known known' (eq.symm.trans same.symm)
  exact rest

/-- A sleeper waits until the delay of its task is over, and not longer than that from now. -/
theorem Kept.target (h : Kept s) {t : TimerTask} (known : t ∈ s.known) {x : Sleeper}
    (asleep : x ∈ s.queue.sleepers) (eq : x.id = t.id) :
    t.since + t.delay ≤ x.target s.now ∧ x.target s.now ≤ s.now + t.delay := by
  obtain ⟨delay, -, -, waits⟩ := h.task_of_sleeper known asleep eq
  have since := (h.older t known).2
  unfold Sleeper.target
  cases due : x.due with
  | none =>
    rw [Option.getD_none, ← delay]
    omega
  | some due' => exact waits due' due

theorem Kept.reserved (h : Kept s) (delay : Nat) : Kept (s.act (.reserve delay)) := by
  have fresh : s.queue.nextId ∉ s.knownIds := fun mem => by
    obtain ⟨t, known, eq⟩ := List.mem_map.mp mem
    exact Nat.ne_of_lt (h.older t known).1 eq
  have unstarted := fun mem => fresh (h.known_of_started mem)
  have ids : (s.act (.reserve delay)).knownIds = s.knownIds ++ [s.queue.nextId] := List.map_append
  refine ⟨fun t mem => ?_, ?_, ?_, ?_, fun t mem => ?_, h.single, fun x mem => ?_,
    fun t mem waiting kept unstarted => ?_, fun x mem => ?_, h.once, h.busy⟩
  · rcases List.mem_append.mp mem with mem | mem
    · exact ⟨Nat.lt_succ_of_lt (h.older t mem).1, (h.older t mem).2⟩
    · rw [List.mem_singleton.mp mem]
      exact ⟨Nat.lt_succ_self _, Nat.le_refl _⟩
  · rw [ids, List.nodup_append_comm]
    exact List.nodup_cons.mpr ⟨fresh, h.distinct⟩
  · rw [ids]
    exact List.Subset.trans h.withdrawn (List.subset_append_left _ _)
  · have new : s.queue.nextId ∉ s.cancelled ∧ s.queue.nextId ∉ s.startedIds :=
      ⟨fun mem => fresh (h.withdrawn mem), unstarted⟩
    have kept : List.filter (fun id => decide (id ∉ s.cancelled ∧ id ∉ s.startedIds))
        [s.queue.nextId] = [s.queue.nextId] := List.filter_cons_of_pos (decide_eq_true new)
    rw [ids, List.filter_append]
    exact TimerQueue.pendingIds_reserve.trans (congrArg₂ _ h.pending kept.symm)
  · rcases List.mem_append.mp mem with mem | mem
    · exact ⟨List.mem_append_left _ (h.unspawned t mem).1, (h.unspawned t mem).2⟩
    · refine ⟨List.mem_append_right _ mem, ?_⟩
      rw [List.mem_singleton.mp mem]
      exact unstarted
  · obtain ⟨t, known, eq, same, waiting, rest⟩ := h.asleep x mem
    refine ⟨t, List.mem_append_left _ known, eq, same, fun mem => ?_, rest⟩
    rcases List.mem_append.mp mem with mem | mem
    · exact waiting mem
    · rw [List.mem_singleton.mp mem] at known
      exact fresh (List.mem_map_of_mem known)
  · rcases List.mem_append.mp mem with mem | mem
    · exact h.present t mem (fun mem => waiting (List.mem_append_left _ mem)) kept unstarted
    · exact absurd (List.mem_append_right _ mem) waiting
  · obtain ⟨t, known, rest⟩ := h.started x mem
    exact ⟨t, List.mem_append_left _ known, rest⟩

theorem Kept.spawned (h : Kept s) {t : TimerTask} (next : t ∈ s.spawning) :
    Kept { s with
      queue := s.queue.spawn t.id t.delay
      spawning := s.spawning.filter (·.id ≠ t.id)
      recording := s.recording ++ [t.id] } := by
  obtain ⟨known, unstarted⟩ := h.unspawned t next
  refine { h with
    unspawned := fun u mem => h.unspawned u (List.mem_of_mem_filter mem)
    single := ?_
    asleep := fun x mem => ?_
    present := fun u known' waiting kept unstarted => ?_ }
  · rw [TimerQueue.sleeperIds_spawn, List.nodup_append_comm]
    refine List.nodup_cons.mpr ⟨fun mem => ?_, h.single⟩
    obtain ⟨x, asleep, eq⟩ := List.mem_map.mp mem
    exact (h.task_of_sleeper known asleep eq).2.1 next
  · rcases List.mem_append.mp mem with mem | mem
    · obtain ⟨u, known', eq, same, waiting, rest⟩ := h.asleep x mem
      exact ⟨u, known', eq, same, fun mem => waiting (List.mem_of_mem_filter mem), rest⟩
    · rw [List.mem_singleton.mp mem]
      exact ⟨t, known, rfl, rfl, fun mem => by simpa using (List.mem_filter.mp mem).2, unstarted,
        nofun⟩
  · rw [TimerQueue.sleeperIds_spawn]
    by_cases eq : u.id = t.id
    · exact List.mem_append_right _ (List.mem_singleton.mpr eq)
    · have spawned : u ∉ s.spawning := fun mem =>
        waiting (List.mem_filter.mpr ⟨mem, by simpa using eq⟩)
      exact List.mem_append_left _ (h.present u known' spawned kept unstarted)

theorem Kept.withdrew (h : Kept s) (id : Nat) : Kept (s.act (.cancel id)) := by
  have marked {i : Nat} : i ∈ (s.act (.cancel id)).cancelled ↔
      i ∈ s.cancelled ∨ i ∈ s.knownIds ∧ i = id := by
    simp [act]
  refine { h with
    older := fun t mem => ⟨?_, (h.older t mem).2⟩
    withdrawn := ?_
    pending := ?_
    single := h.single.sublist (TimerQueue.sleepers_cancel_sublist.map _)
    asleep := fun x mem => h.asleep x (TimerQueue.sleepers_cancel_sublist.subset mem)
    present := fun t known waiting kept unstarted => ?_
    busy := fun i mem => h.busy ?_ }
  · show t.id < (s.queue.cancel id).nextId
    rw [TimerQueue.nextId_cancel]
    exact (h.older t mem).1
  · exact List.append_subset.mpr ⟨h.withdrawn, fun _ mem => List.mem_of_mem_filter mem⟩
  · show (s.queue.cancel id).pendingIds = s.knownIds.filter _
    rw [TimerQueue.pendingIds_cancel, h.pending, List.filter_filter]
    refine List.filter_congr fun i mem => ?_
    rw [← Bool.decide_and, decide_eq_decide, marked]
    show _ ↔ _ ∧ i ∉ s.startedIds
    tauto
  · rw [marked, not_or] at kept
    have other : t.id ≠ id := fun eq => kept.2 ⟨List.mem_map_of_mem known, eq⟩
    exact TimerQueue.mem_sleeperIds_cancel (h.present t known waiting kept.1 unstarted) other
  · dsimp only [act] at mem
    split at mem
    · exact List.mem_of_mem_filter mem
    · exact mem

theorem Kept.dozed (h : Kept s) {x : Sleeper} (asleep : x ∈ s.queue.sleepers) :
    Kept { s with queue := s.queue.doze x.id (x.target s.now) } := by
  refine { h with
    single := ?_
    asleep := fun y mem => ?_
    present := fun t known waiting kept unstarted => ?_ }
  · rw [TimerQueue.sleeperIds_doze]
    exact h.single
  · obtain ⟨y, mem', eq, rfl⟩ | ⟨mem, -⟩ := TimerQueue.mem_sleepers_doze mem
    · obtain ⟨t, known, same, delay, waiting, unstarted, -⟩ := h.asleep y mem'
      refine ⟨t, known, same, delay, waiting, unstarted, fun due knows => ?_⟩
      obtain rfl : x.target s.now = due := Option.some.inj knows
      exact h.target known asleep (eq.symm.trans same.symm)
    · exact h.asleep y mem
  · rw [TimerQueue.sleeperIds_doze]
    exact h.present t known waiting kept unstarted

/-- A sleeper that starts its task leaves neither itself nor the entry. -/
theorem Kept.claimed (h : Kept s) {x : Sleeper} (asleep : x ∈ s.queue.sleepers)
    (come : x.target s.now ≤ s.now) : Kept (s.claim x.id) := by
  obtain ⟨t, known, same, -, spawned, unstarted, -⟩ := h.asleep x asleep
  have ids : (s.claim x.id).startedIds = s.startedIds ++ [x.id] := List.map_append
  have other {i : Nat} (mem : i ∉ (s.claim x.id).startedIds) : i ∉ s.startedIds ∧ i ≠ x.id := by
    rwa [ids, List.mem_append, List.mem_singleton, not_or] at mem
  refine { h with
    pending := ?_
    unspawned := fun u mem => ⟨(h.unspawned u mem).1, ?_⟩
    single := h.single.sublist (List.filter_sublist.map _)
    asleep := fun y mem => ?_
    present := fun u known' waiting kept unstarted => ?_
    started := fun y mem => ?_
    once := ?_
    busy := ?_ }
  · show (s.queue.dropEntry x.id).pendingIds = s.knownIds.filter _
    rw [TimerQueue.pendingIds_dropEntry, h.pending, List.filter_filter]
    refine List.filter_congr fun i _ => ?_
    rw [← Bool.decide_and, decide_eq_decide, ids, List.mem_append, List.mem_singleton]
    show _ ↔ i ∉ s.cancelled ∧ _
    tauto
  · -- A task that has no sleeper yet is not the one whose sleeper has woken.
    rw [ids, List.mem_append, List.mem_singleton, not_or]
    refine ⟨(h.unspawned u mem).2, fun eq => spawned ?_⟩
    rwa [h.eq_of_id known (h.unspawned u mem).1 (same.trans eq.symm)]
  · obtain ⟨mem, apart⟩ := List.mem_filter.mp mem
    obtain ⟨u, known', eq, delay, waiting, unstarted', rest⟩ := h.asleep y mem
    refine ⟨u, known', eq, delay, waiting, ?_, rest⟩
    rw [ids, List.mem_append, List.mem_singleton, not_or]
    exact ⟨unstarted', by rw [eq]; simpa using apart⟩
  · obtain ⟨unstarted', apart⟩ := other unstarted
    show u.id ∈ ((s.queue.dropEntry x.id).dropSleeper x.id).sleeperIds
    rw [TimerQueue.sleeperIds_dropSleeper]
    exact List.mem_filter.mpr ⟨h.present u known' waiting kept unstarted', by simpa using apart⟩
  · rcases List.mem_append.mp mem with mem | mem
    · exact h.started y mem
    · rw [List.mem_singleton.mp mem]
      exact ⟨t, known, same, Nat.le_trans (h.target known asleep same.symm).1 come⟩
  · rw [ids, List.nodup_append_comm]
    exact List.nodup_cons.mpr ⟨same ▸ unstarted, h.once⟩
  · rw [ids]
    refine List.append_subset.mpr ⟨?_, List.subset_append_right _ _⟩
    exact List.Subset.trans h.busy (List.subset_append_left _ _)

/-- A sleeper ends without running its task only if the task was cancelled. -/
theorem Kept.gone (h : Kept s) {x : Sleeper}
    (free : x.id ∉ s.queue.pendingIds) : Kept { s with queue := s.queue.dropSleeper x.id } := by
  refine { h with
    single := h.single.sublist (List.filter_sublist.map _)
    asleep := fun y mem => h.asleep y (List.mem_of_mem_filter mem)
    present := fun t known waiting kept unstarted => ?_ }
  rw [TimerQueue.sleeperIds_dropSleeper]
  have other : t.id ≠ x.id := fun eq =>
    free (eq ▸ h.mem_pendingIds.mpr ⟨List.mem_map_of_mem known, kept, unstarted⟩)
  exact List.mem_filter.mpr ⟨h.present t known waiting kept unstarted, by simpa using other⟩

/-- **A move keeps the invariant.** -/
theorem Move.keeps (m : Move s s') (h : Kept s) : Kept s' := by
  cases m with
  | stayed => exact h
  | reserved delay => exact h.reserved delay
  | spawned next => exact h.spawned next
  | recorded id => exact { h with pending := TimerQueue.pendingIds_record.trans h.pending }
  | withdrew id => exact h.withdrew id
  | dozed asleep => exact h.dozed asleep
  | claimed asleep come pending => exact h.claimed asleep come
  | gone _ free => exact h.gone free
  | finished id => exact { h with busy := fun _ mem => h.busy (List.mem_of_mem_filter mem) }
  | passed ms =>
    refine { h with older := fun t mem => ?_, asleep := fun x mem => ?_ }
    · exact ⟨(h.older t mem).1, Nat.le_trans (h.older t mem).2 (Nat.le_add_right _ _)⟩
    · obtain ⟨t, known, same, delay, waiting, unstarted, waits⟩ := h.asleep x mem
      refine ⟨t, known, same, delay, waiting, unstarted, fun due knows => ?_⟩
      have now : (s.act (.pass ms)).now = s.now + ms := rfl
      obtain ⟨late, soon⟩ := waits due knows
      omega

theorem kept_empty : Kept {} where
  older := nofun
  distinct := List.nodup_nil
  withdrawn := List.nil_subset _
  pending := rfl
  unspawned := nofun
  single := List.nodup_nil
  asleep := nofun
  present := nofun
  started := nofun
  once := List.nodup_nil
  busy := List.nil_subset _

theorem kept_run (actions : List Action) : Kept (run {} actions) :=
  keeps_run (fun m h => m.keeps h) kept_empty actions

end TimerService

end Cadence
