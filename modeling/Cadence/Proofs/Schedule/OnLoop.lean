import Cadence.Proofs.Clock.Reach
import Cadence.Proofs.Schedule.Punctual

/-!
# Frames on the loop

A loop with frames is a service: whatever happens to the loop, its clock, its queue and the task
that it runs are those of a run of `FrameService`, and tasks start when the program is first asked
to go on with them.

* `firsts`, `Program.logged`: the log of a program, in which the first entries of tasks are starts;
* `Loop.Reflects`, `Loop.Shows`: the loop is as the service, and its driver is not forgotten;
* `Loop.Shows.schedule`, `Loop.Shows.cancel`, `Loop.Shows.poll`, `Loop.Shows.ring`: one lemma for
  each thing that can happen;
* **`Loop.Reaches.shows`**: a loop shows a service, whatever has become of it;
* `Loop.Shows.isIdle`, **`Loop.punctual`**, `Loop.punctual_advance`: its tasks run on time.
-/

namespace Cadence

/-! ## Logs -/

/-- Add an entry unless its task has one. -/
def addFirst (seen : List (Nat × Nat)) (x : Nat × Nat) : List (Nat × Nat) :=
  if x.1 ∈ seen.map (·.1) then seen else seen ++ [x]

/-- The first entry of each task. -/
def firsts (log : List (Nat × Nat)) : List (Nat × Nat) := log.foldl addFirst []

theorem firsts_append (log : List (Nat × Nat)) (x : Nat × Nat) :
    firsts (log ++ [x]) = addFirst (firsts log) x := List.foldl_append

/-- The log behind the poll of a piece of work. -/
def logged (now : Nat) (log : List (Nat × Nat)) : Work → List (Nat × Nat)
  | .scheduled id => log ++ [(id, now * nanosPerMilli)]
  | _ => log

/-- A program that keeps a log of the tasks with which it goes on. -/
def Program.logged {π : Type} (P : Program π) : Program (π × List (Nat × Nat)) where
  poll now p w :=
    let (program, requests, outcome) := P.poll now p.1 w
    ((program, Cadence.logged now p.2 w), requests, outcome)

theorem Program.logged_of_other {π : Type} (P : Program π) {now : Nat} {p : π × List (Nat × Nat)}
    {w : Work} (other : ∀ id, w ≠ .scheduled id) : (P.logged.poll now p w).1.2 = p.2 := by
  cases w with
  | scheduled id => exact absurd rfl (other id)
  | spawned | foreground => rfl

namespace FrameQueue

variable {q : FrameQueue} {b now : Nat}

theorem batch_takeDue_ne_nil (next : q.nextBoundary = some b) : (q.takeDue b).batch ≠ [] := by
  obtain ⟨t, pending, eq, -⟩ := exists_of_nextBoundary next
  have due : t.id ∈ (q.takeDue b).batch :=
    List.mem_map_of_mem (mem_due.mpr ⟨pending, Nat.le_of_eq eq⟩)
  exact List.ne_nil_of_mem due

theorem exists_of_batch (busy : q.batch ≠ []) :
    ∃ id rest, q.phase = .serving (id :: rest) := by
  unfold batch at busy
  split at busy
  · next ids serving =>
    obtain ⟨id, rest, rfl⟩ := List.exists_cons_of_ne_nil busy
    exact ⟨id, rest, serving⟩
  · exact absurd rfl busy

theorem exists_of_aims {phase : DriverPhase} (aims : q.Aims now phase) :
    phase = .idle ∨ ∃ b, phase = .asleep b ∧ now < b := by
  obtain ⟨idle, -⟩ | ⟨b, asleep, -, wait⟩ := aims
  · exact .inl idle
  · exact .inr ⟨b, asleep, wait⟩

/-- **Two looks at the clock** are enough: the driver has a task to start, or it waits. -/
theorem settled_cases (free : q.batch = []) (now : Nat) :
    ((q.settle now).settle now).batch ≠ [] ∨
      ((q.settle now).settle now).phase = .idle ∨
        ∃ b, ((q.settle now).settle now).phase = .asleep b ∧ now < b := by
  obtain ⟨b, -, -, took⟩ | ⟨phase, aims, aimed⟩ := settle_cases free now
  · rw [took]
    by_cases empty : (q.takeDue b).batch = []
    · -- The boundary was that of a task which has been cancelled.
      have phase : (q.takeDue b).phase = .serving [] := congrArg DriverPhase.serving empty
      have eq : (q.takeDue b).settle now = (q.takeDue b).aim now := by
        unfold settle
        rw [phase]
      rw [eq]
      obtain ⟨c, -, next, took⟩ | ⟨phase, aims, aimed⟩ := aim_cases (q.takeDue b) now
      · rw [took]
        exact .inl (batch_takeDue_ne_nil next)
      · rw [aimed]
        exact .inr (exists_of_aims aims)
    · rw [settle_of_batch empty]
      exact .inl empty
  · rw [aimed]
    obtain ⟨c, come, waited | next, took⟩ | ⟨phase', aims', aimed⟩ :=
      settle_cases (batch_of_aims aims) now
    · obtain idle | ⟨b, asleep, wait⟩ := exists_of_aims aims
      · cases idle.symm.trans waited
      · cases asleep.symm.trans waited
        exact absurd come (Nat.not_le.mpr wait)
    · rw [took]
      exact .inl (batch_takeDue_ne_nil next)
    · rw [aimed]
      exact .inr (exists_of_aims aims')

end FrameQueue

namespace FrameService

variable {s : FrameService}

theorem look_of_free (free : s.running = none) :
    (s.act .look).queue = s.queue.settle s.now ∧ (s.act .look).running = none ∧
      (s.act .look).now = s.now ∧ (s.act .look).starts = s.starts := by
  unfold act
  dsimp only
  by_cases empty : s.queue.batch = []
  · rw [if_pos ⟨free, empty⟩]
    exact ⟨rfl, free, rfl, rfl⟩
  · rw [if_neg fun h => empty h.2]
    exact ⟨(FrameQueue.settle_of_batch empty _).symm, free, rfl, rfl⟩

theorem woken_look (free : s.running = none) (calm : s.queue.batch = [] ∨ s.woken = false) :
    (s.act .look).woken = false := by
  unfold act
  dsimp only
  by_cases empty : s.queue.batch = []
  · rw [if_pos ⟨free, empty⟩]
  · rw [if_neg fun h => empty h.2]
    exact calm.resolve_left empty

theorem look_look (free : s.running = none) :
    ((s.act .look).act .look).queue = (s.queue.settle s.now).settle s.now ∧
      (((s.act .look).act .look).queue.batch ≠ [] ∨ ((s.act .look).act .look).woken = false ∧
        (((s.act .look).act .look).queue.phase = .idle ∨
          ∃ b, ((s.act .look).act .look).queue.phase = .asleep b ∧ s.now < b)) := by
  obtain ⟨queue, running, now, -⟩ := look_of_free free
  obtain ⟨queue', -⟩ := look_of_free running
  rw [now, queue] at queue'
  refine ⟨queue', ?_⟩
  rw [queue']
  by_cases empty : s.queue.batch = []
  · exact (FrameQueue.settled_cases empty s.now).imp_right fun waits =>
      ⟨woken_look running (.inr (woken_look free (.inl empty))), waits⟩
  · rw [FrameQueue.settle_of_batch empty, FrameQueue.settle_of_batch empty]
    exact .inl empty

end FrameService

namespace Loop

variable {π : Type}

/-! ## Loops and services -/

variable {frame : Nat} {l l' : Loop (π × List (Nat × Nat))} {s : FrameService}

/-- The loop has the clock, the queue and the running task of a service that has been running since
it began, and the log has its starts. Alarms are to come. -/
structure Reflects (l : Loop (π × List (Nat × Nat))) (s : FrameService) : Prop where
  source : ∃ frame actions, s = (FrameService.opened frame).run actions
  scheduler : l.scheduler = .frames s.queue
  now : s.now = l.nanos
  running : l.running = s.running.toList
  starts : s.starts = firsts l.program.2
  underWay : ∀ id ∈ l.running, id ∈ s.startedIds
  ahead : ∀ a ∈ l.alarms, l.now ≤ a.1

/-- The driver that is not at work and not about to look has looked since the last task was
scheduled, and has an alarm at the boundary that it waits for. -/
structure Shows (l : Loop (π × List (Nat × Nat))) (s : FrameService) : Prop extends
    l.Reflects s where
  watch : l.running = [] → .driver ∉ l.ready →
    s.woken = false ∧ (s.queue.phase = .idle ∨
      ∃ b, s.queue.phase = .asleep b ∧ (ceilMillis b, .driver) ∈ l.alarms)

theorem shows_create (frame : Nat) (p : π) :
    (create (.frames { frame }) (p, [])).Shows (FrameService.opened frame) where
  source := ⟨frame, [], rfl⟩
  scheduler := rfl
  now := (Nat.zero_mul _).symm
  running := rfl
  starts := rfl
  underWay := nofun
  ahead := nofun
  watch _ asleep := absurd List.mem_cons_self asleep

/-! ## Requests -/

theorem Reflects.source_act (h : l.Reflects s) (a : FrameService.Action) :
    ∃ frame actions, s.act a = (FrameService.opened frame).run actions := by
  obtain ⟨frame, actions, eq⟩ := h.source
  exact ⟨frame, actions ++ [a], by rw [FrameService.run_append, ← eq]; rfl⟩

theorem Shows.roused (h : l.Shows s) {ready : List Strand}
    (more : .driver ∈ l.ready → .driver ∈ ready) (summoned : Bool) :
    ({ l with ready, summoned } : Loop _).Shows s :=
  ⟨{ h.toReflects with }, fun free asleep => h.watch free fun mem => asleep (more mem)⟩

theorem Shows.wake (h : l.Shows s) (x : Strand) :
    (l.wake x).Shows s ∧ (l.wake x).running = l.running := by
  obtain ⟨ready, summoned, eq, more, -⟩ := exists_wake l x
  rw [eq]
  exact ⟨h.roused (fun mem => more mem) summoned, rfl⟩

theorem Shows.schedule (h : l.Shows s) (delay : Nat) :
    (l.schedule delay).1.Shows (s.act (.schedule (delay * nanosPerMilli))) ∧
      (l.schedule delay).1.running = l.running ∧ (l.schedule delay).2 = s.queue.nextId := by
  let added : Loop (π × List (Nat × Nat)) :=
    { l with scheduler := .frames (s.queue.schedule l.nanos (delay * nanosPerMilli)).1 }
  have eq : l.schedule delay =
      (if l.running.isEmpty then added.wake .driver else added, s.queue.nextId) := by
    unfold Loop.schedule
    rw [h.scheduler]
    rfl
  have reflects : added.Reflects (s.act (.schedule (delay * nanosPerMilli))) := by
    refine { h.toReflects with source := h.source_act _, scheduler := ?_ }
    show Scheduler.frames (s.queue.schedule l.nanos _).1 = .frames (s.queue.schedule s.now _).1
    rw [h.now]
  rw [eq]
  by_cases free : l.running.isEmpty
  · obtain ⟨ready, summoned, eq, more, woken⟩ := exists_wake added .driver
    rw [if_pos free, eq]
    exact ⟨⟨{ reflects with }, fun _ asleep => absurd (woken rfl) asleep⟩, rfl, rfl⟩
  · rw [if_neg free]
    exact ⟨⟨reflects, fun empty => absurd (List.isEmpty_iff.mpr empty) free⟩, rfl, rfl⟩

theorem Shows.cancel (h : l.Shows s) (id : Nat) :
    (l.cancel id).Shows (s.act (.cancel id)) ∧ (l.cancel id).running = l.running := by
  have eq : l.cancel id = { l with scheduler := .frames (s.queue.cancel id) } := by
    unfold Loop.cancel
    rw [h.scheduler]
  rw [eq]
  exact ⟨⟨{ h.toReflects with source := h.source_act _, scheduler := rfl }, h.watch⟩, rfl⟩

theorem Shows.serve (h : l.Shows s) (r : Request) :
    ∃ actions, (l.serve r).Shows (s.run actions) ∧ (l.serve r).running = l.running := by
  cases r with
  | schedule delay =>
    obtain ⟨shows, same, -⟩ := h.schedule delay
    exact ⟨[.schedule (delay * nanosPerMilli)], shows, same⟩
  | cancel id => exact ⟨[.cancel id], h.cancel id⟩
  | wake w => exact ⟨[], h.wake _⟩

theorem Shows.serveAll (h : l.Shows s) (requests : List Request) :
    ∃ actions, (requests.foldl Loop.serve l).Shows (s.run actions) ∧
      (requests.foldl Loop.serve l).running = l.running := by
  induction requests generalizing l s with
  | nil => exact ⟨[], h, rfl⟩
  | cons r requests ih =>
    obtain ⟨first, shows, same⟩ := h.serve r
    obtain ⟨rest, shows', same'⟩ := ih shows
    refine ⟨first ++ rest, ?_, same'.trans same⟩
    rw [FrameService.run_append]
    exact shows'

/-! ## Work -/

theorem ahead_setAlarm (ahead : ∀ a ∈ l.alarms, l.now ≤ a.1) {time : Nat} (later : l.now ≤ time)
    (x : Strand) : ∀ a ∈ (l.setAlarm time x).alarms, l.now ≤ a.1 := by
  intro a mem
  rcases List.mem_append.mp mem with mem | mem
  · exact ahead a (List.mem_of_mem_filter mem)
  · rw [List.mem_singleton.mp mem]
    exact later

theorem le_of_rung {alarms : List (Nat × Strand)} {time : Nat} {a : Nat × Strand}
    (mem : a ∈ alarms.filter fun a => !decide (a.1 ≤ time)) : time ≤ a.1 := by
  have late := (List.mem_filter.mp mem).2
  rw [Bool.not_eq_true', decide_eq_false_iff_not] at late
  exact Nat.le_of_not_le late

theorem Shows.setAlarm (h : l.Shows s) {time : Nat} (later : l.now ≤ time) {x : Strand}
    (busy : x = .driver → l.running ≠ []) : (l.setAlarm time x).Shows s := by
  refine ⟨{ h.toReflects with ahead := ahead_setAlarm h.ahead later x }, fun free asleep => ?_⟩
  obtain ⟨calm, idle | ⟨b, phase, mem⟩⟩ := h.watch free asleep
  · exact ⟨calm, .inl idle⟩
  · refine ⟨calm, .inr ⟨b, phase, List.mem_append_left _ (List.mem_filter.mpr ⟨mem, ?_⟩)⟩⟩
    exact decide_eq_true fun eq => busy eq.symm free

/-- **A piece of work goes on.** The driver carries the running task, and no other work. -/
theorem Shows.work (P : Program π) {w : Work} {x : Strand}
    (h : ({ l with program := (P.logged.poll l.now l.program w).1 } : Loop _).Shows s)
    (carried : (∃ id, w = .scheduled id ∧ l.running = [id] ∧ x = .driver) ∨
      (∀ id, w ≠ .scheduled id) ∧ x ≠ .driver) :
    ∃ actions, (l.work P.logged w x).Shows (s.run actions) := by
  rcases polled : P.logged.poll l.now l.program w with ⟨program, requests, outcome⟩
  rw [polled] at h
  obtain ⟨actions, shows, same⟩ := h.serveAll requests
  unfold Loop.work
  rw [polled]
  dsimp only
  obtain ⟨id, rfl, running, rfl⟩ | ⟨other, apart⟩ := carried
  · have busy : (requests.foldl Loop.serve { l with program }).running = [id] :=
      same.trans running
    cases outcome with
    | sleep ms =>
      exact ⟨actions, shows.setAlarm (Nat.le_add_right _ _) fun _ free =>
        List.cons_ne_nil _ _ (busy.symm.trans free)⟩
    | wait => exact ⟨actions, shows⟩
    | done =>
      refine ⟨actions ++ [.finish], ?_⟩
      rw [FrameService.run_append]
      dsimp only
      rw [if_pos rfl]
      refine ⟨⟨shows.source_act .finish, shows.scheduler, shows.now, ?_, shows.starts, ?_,
        shows.ahead⟩, fun _ asleep => absurd List.mem_cons_self asleep⟩
      · show List.filter _ (requests.foldl Loop.serve { l with program }).running = []
        rw [busy]
        simp
      · intro id' mem
        exact shows.underWay id' (List.mem_of_mem_filter mem)
  · cases outcome with
    | sleep ms =>
      exact ⟨actions, shows.setAlarm (Nat.le_add_right _ _) fun eq => absurd eq apart⟩
    | wait => exact ⟨actions, shows⟩
    | done =>
      cases w with
      | scheduled id => exact absurd rfl (other id)
      | spawned | foreground => exact ⟨actions, shows⟩

theorem Shows.workBeside (h : l.Shows s) (P : Program π) {w : Work} {x : Strand}
    (other : ∀ id, w ≠ .scheduled id) (apart : x ≠ .driver) :
    ∃ actions, (l.work P.logged w x).Shows (s.run actions) := by
  have log : (P.logged.poll l.now l.program w).1.2 = l.program.2 := P.logged_of_other other
  refine Shows.work P ⟨{ h.toReflects with starts := ?_ }, h.watch⟩
    (.inr ⟨other, apart⟩)
  show s.starts = firsts (P.logged.poll l.now l.program w).1.2
  rw [log]
  exact h.starts

theorem Reflects.idle (h : l.Reflects s) (free : l.running = []) : s.running = none := by
  rw [← Option.toList_eq_nil_iff, ← h.running, free]

theorem Reflects.goOn (h : l.Reflects s) {id : Nat} (running : l.running = [id]) (P : Program π) :
    ({ l with program := (P.logged.poll l.now l.program (.scheduled id)).1 } : Loop _).Shows s := by
  refine ⟨{ h with starts := ?_ }, fun free => ?_⟩
  · have old : id ∈ (firsts l.program.2).map (·.1) := by
      rw [← h.starts]
      exact h.underWay id (running ▸ List.mem_cons_self)
    show s.starts = firsts (l.program.2 ++ [(id, l.now * nanosPerMilli)])
    rw [firsts_append, addFirst, if_pos old]
    exact h.starts
  · exact absurd (free.symm.trans running) (List.cons_ne_nil _ _).symm

theorem Reflects.start (h : l.Reflects s) (free : l.running = []) {id : Nat} {rest : List Nat}
    (next : s.queue.phase = .serving (id :: rest)) (P : Program π) :
    ({ l with
      scheduler := .frames { s.queue with phase := .serving rest }
      running := [id]
      program := (P.logged.poll l.now l.program (.scheduled id)).1 } : Loop _).Shows
        (s.act .start) := by
  have idle := h.idle free
  have act : s.act .start = { s with
      queue := { s.queue with phase := .serving rest }
      running := some id
      starts := s.starts ++ [(id, s.now)] } := by
    unfold FrameService.act FrameQueue.proceed
    dsimp only
    rw [idle, next]
  have new : id ∉ (firsts l.program.2).map (·.1) := by
    obtain ⟨frame, actions, eq⟩ := h.source
    obtain ⟨tasks, kept, -⟩ := FrameService.exists_kept frame actions
    have once := kept.once
    rw [List.map_append, kept.ids, ← eq, FrameService.taken, FrameQueue.batch, next] at once
    rw [← h.starts]
    exact fun old => List.disjoint_of_nodup_append once.of_append_left old List.mem_cons_self
  have source := h.source_act .start
  rw [act] at source ⊢
  refine ⟨⟨source, rfl, h.now, rfl, ?_, ?_, h.ahead⟩,
    fun free => absurd free (List.cons_ne_nil _ _)⟩
  · show s.starts ++ [(id, s.now)] = firsts (l.program.2 ++ [(id, l.now * nanosPerMilli)])
    rw [firsts_append, addFirst, if_neg new, ← h.starts, h.now]
    rfl
  · intro id' mem
    rw [List.mem_singleton.mp mem, FrameService.startedIds, List.map_append]
    exact List.mem_append_right _ List.mem_cons_self

theorem lt_ceilMillis_iff {now b : Nat} : now < ceilMillis b ↔ now * nanosPerMilli < b := by
  unfold ceilMillis nanosPerMilli
  omega

theorem Reflects.alone (h : l.Reflects s) {id : Nat} {rest : List Nat}
    (running : l.running = id :: rest) : l.running = [id] := by
  rw [h.running] at running ⊢
  cases busy : s.running with
  | none =>
    rw [busy] at running
    cases running
  | some _ =>
    rw [busy] at running
    cases running
    rfl

theorem Reflects.look (h : l.Reflects s) (free : l.running = []) :
    ({ l with scheduler := .frames (s.queue.settle s.now) } : Loop _).Reflects (s.act .look) := by
  obtain ⟨queue, running, now, starts⟩ := FrameService.look_of_free (h.idle free)
  have underWay : ∀ id ∈ l.running, id ∈ (s.act .look).startedIds := by
    rw [free]
    nofun
  exact ⟨h.source_act .look, congrArg Scheduler.frames queue.symm, now.trans h.now,
    free.trans (congrArg Option.toList running).symm, starts.trans h.starts, underWay, h.ahead⟩

/-- After two looks the driver has a task to start, or it waits. -/
theorem Reflects.looks (h : l.Reflects s) (free : l.running = []) :
    ∃ s', s' = s.run [.look, .look] ∧ s.queue.drive l.nanos = s'.queue.proceed ∧
      ({ l with scheduler := .frames s'.queue } : Loop _).Reflects s' ∧
      (s'.queue.batch ≠ [] ∨ s'.woken = false ∧ (s'.queue.phase = .idle ∨
        ∃ b, s'.queue.phase = .asleep b ∧ l.nanos < b)) := by
  obtain ⟨queue, next⟩ := FrameService.look_look (h.idle free)
  rw [h.now] at queue next
  refine ⟨(s.act .look).act .look, rfl, ?_, ?_, next⟩
  · rw [queue]
    rfl
  · exact { (h.look free).look free with scheduler := rfl }

/-- **The driver goes on.** -/
theorem Reflects.pollDriver (h : l.Reflects s) (P : Program π) :
    ∃ actions, (l.pollDriver P.logged).Shows (s.run actions) := by
  unfold Loop.pollDriver
  rw [h.scheduler]
  dsimp only
  split
  · next id rest running =>
    have alone := h.alone running
    unfold Loop.workOn isRunning
    rw [if_pos (by rw [alone]; simp)]
    exact (h.goOn alone P).work P (.inl ⟨id, rfl, alone, rfl⟩)
  · next free =>
    obtain ⟨s', looks, drive, reflects, next⟩ := h.looks free
    rw [drive]
    unfold FrameQueue.proceed
    obtain busy | ⟨calm, idle | ⟨b, asleep, wait⟩⟩ := next
    · obtain ⟨id, rest, serving⟩ := FrameQueue.exists_of_batch busy
      let begun : Loop (π × List (Nat × Nat)) :=
        { l with
          scheduler := .frames { s'.queue with phase := .serving rest }
          running := [id] }
      obtain ⟨actions, shows⟩ := Shows.work (l := begun) P (reflects.start free serving P)
        (.inl ⟨id, rfl, rfl, rfl⟩)
      refine ⟨[.look, .look] ++ .start :: actions, ?_⟩
      rw [FrameService.run_append, ← looks, serving]
      dsimp only
      unfold Loop.workOn isRunning
      dsimp only
      rw [free]
      exact shows
    · refine ⟨[.look, .look], ?_⟩
      rw [← looks, idle]
      exact ⟨reflects, fun _ _ => ⟨calm, .inl idle⟩⟩
    · refine ⟨[.look, .look], ?_⟩
      rw [← looks, asleep]
      have later := Nat.le_of_lt (lt_ceilMillis_iff.mpr wait)
      exact ⟨{ reflects with ahead := ahead_setAlarm h.ahead later .driver },
        fun _ _ => ⟨calm, .inr ⟨b, asleep, List.mem_append_right _ List.mem_cons_self⟩⟩⟩

/-! ## Turns -/

theorem Shows.poll (h : l.Shows s) (P : Program π) {x : Strand} {r : List Strand}
    (ready : l.ready = x :: r) :
    ∃ actions, (poll P.logged { l with ready := r } x).Shows (s.run actions) := by
  have reflects : ({ l with ready := r } : Loop _).Reflects s := { h.toReflects with }
  have others : x ≠ .driver → ({ l with ready := r } : Loop _).Shows s := fun apart =>
    h.roused (fun mem => (List.mem_cons.mp (ready ▸ mem)).resolve_left apart.symm) l.summoned
  cases x with
  | driver => exact reflects.pollDriver P
  | sleeper id =>
    have same : pollSleeper P.logged { l with ready := r } id = { l with ready := r } := by
      unfold Loop.pollSleeper
      dsimp only
      rw [h.scheduler]
    refine ⟨[], ?_⟩
    rw [Loop.poll, same]
    exact others (by simp)
  | foreground => exact (others (by simp)).workBeside P (by simp) (by simp)
  | spawned n => exact (others (by simp)).workBeside P (by simp) (by simp)

theorem Shows.pollForeground (h : l.Shows s) (P : Program π) (summoned : Bool) :
    ∃ actions, (Loop.poll P.logged { l with summoned } .foreground).Shows (s.run actions) :=
  (h.roused id summoned).workBeside P (by simp) (by simp)

theorem Shows.pass (h : l.Shows s) {time : Nat} (later : l.now ≤ time)
    {alarms : List (Nat × Strand)} (ahead : ∀ a ∈ alarms, time ≤ a.1) {ready : List Strand}
    (more : .driver ∈ l.ready → .driver ∈ ready)
    (rung : ∀ b, (b, .driver) ∈ l.alarms → (b, .driver) ∈ alarms ∨ .driver ∈ ready)
    (summoned : Bool) :
    ∃ n, ({ l with now := time, alarms, ready, summoned } : Loop _).Shows (s.act (.pass n)) := by
  obtain ⟨n, moved⟩ : ∃ n, s.now + n = time * nanosPerMilli :=
    ⟨time * nanosPerMilli - s.now, by
      rw [h.now]
      exact Nat.add_sub_cancel' (Nat.mul_le_mul_right _ later)⟩
  refine ⟨n, { h.toReflects with source := h.source_act _, now := moved, ahead },
    fun free asleep => ?_⟩
  obtain ⟨calm, idle | ⟨b, phase, mem⟩⟩ := h.watch free fun mem => asleep (more mem)
  · exact ⟨calm, .inl idle⟩
  · exact ⟨calm, .inr ⟨b, phase, (rung _ mem).resolve_right asleep⟩⟩

/-- **The alarms of a time go off.** -/
theorem Shows.ring (h : l.Shows s) (P : Program π) {time : Nat} (later : l.now ≤ time) :
    ∃ actions, (Loop.ring P.logged time l).Shows (s.run actions) := by
  let alarms := l.alarms.filter fun a => !decide (a.1 ≤ time)
  obtain ⟨ready, summoned, eq, more, woken⟩ :=
    exists_wakeAll (l.alarms.filter (·.1 ≤ time)) { l with now := time, alarms }
  have ahead : ∀ a ∈ alarms, time ≤ a.1 := fun a mem => le_of_rung mem
  have rung : ∀ b, (b, .driver) ∈ l.alarms → (b, .driver) ∈ alarms ∨ .driver ∈ ready := by
    intro b mem
    by_cases due : b ≤ time
    · exact .inr (woken (b, .driver) (List.mem_filter.mpr ⟨mem, decide_eq_true due⟩) rfl)
    · exact .inl (List.mem_filter.mpr ⟨mem, by rw [decide_eq_false due]; rfl⟩)
  obtain ⟨n, passed⟩ := h.pass later ahead (fun mem => more mem) rung summoned
  unfold Loop.ring
  dsimp only
  rw [eq]
  split
  · obtain ⟨actions, shows⟩ := passed.pollForeground P false
    exact ⟨.pass n :: actions, shows⟩
  · exact ⟨[.pass n], passed⟩

/-! ## Whatever happens to a loop -/

theorem Step.shows {P : Program π} (step : Step P.logged l l') (h : l.Shows s) :
    ∃ actions, l'.Shows (s.run actions) := by
  cases step with
  | scheduled delay => exact ⟨[.schedule (delay * nanosPerMilli)], (h.schedule delay).1⟩
  | cancelled id => exact ⟨[.cancel id], (h.cancel id).1⟩
  | polled ready => exact h.poll P ready
  | summoned => exact h.pollForeground P false
  | rang next =>
    obtain ⟨a, mem, rfl⟩ := List.mem_map.mp (List.min?_eq_some_iff.mp next).1
    exact h.ring P (h.ahead a mem)
  | @passed time later calm =>
    obtain ⟨n, passed⟩ := h.pass later calm id (fun _ mem => .inl mem) l.summoned
    exact ⟨[.pass n], passed⟩

/-- **A loop stays a service**, and its history goes on. -/
theorem Reaches.shows {P : Program π} (reaches : Reaches P.logged l l') (h : l.Shows s) :
    ∃ actions, l'.Shows (s.run actions) := by
  induction reaches with
  | refl => exact ⟨[], h⟩
  | tail _ step ih =>
    obtain ⟨actions, shows⟩ := ih
    obtain ⟨more, shows⟩ := step.shows shows
    exact ⟨actions ++ more, by rwa [FrameService.run_append]⟩

/-! ## Punctual loops -/

theorem exists_shows {P : Program π} {p : π}
    (reaches : Reaches P.logged (create (.frames { frame }) (p, [])) l) :
    ∃ actions, l.Shows ((FrameService.opened frame).run actions) :=
  reaches.shows (shows_create frame p)

theorem Shows.isIdle (h : l.Shows s) (ready : l.ready = []) (free : l.running = [])
    (ahead : ∀ a ∈ l.alarms, l.now < a.1) : s.IsIdle := by
  have asleep : Strand.driver ∉ l.ready := by
    rw [ready]
    nofun
  obtain ⟨calm, idle | ⟨b, phase, mem⟩⟩ := h.watch free asleep
  · exact ⟨h.idle free, calm, .inl idle⟩
  · refine ⟨h.idle free, calm, .inr ⟨b, phase, ?_⟩⟩
    rw [h.now]
    exact lt_ceilMillis_iff.mp (ahead _ mem)

/-- **A loop runs its tasks on time**: what a program logs are the starts of a service that is
punctual if a word can hold its boundaries, and that is idle when the loop has nothing to do. -/
theorem punctual {P : Program π} {p : π} (pos : 0 < frame)
    (reaches : Reaches P.logged (create (.frames { frame }) (p, [])) l) :
    ∃ s : FrameService, l.Shows s ∧ s.queue.frame = frame ∧ (s.InRange → s.Punctual) ∧
      (l.ready = [] → l.running = [] → (∀ a ∈ l.alarms, l.now < a.1) → s.IsIdle) := by
  obtain ⟨actions, shows⟩ := exists_shows reaches
  obtain ⟨tasks, kept, order⟩ := FrameService.exists_kept frame actions
  have eq : ((FrameService.opened frame).run actions).queue.frame = frame :=
    FrameService.frame_run _ _
  have pos' : 0 < ((FrameService.opened frame).run actions).queue.frame := by
    rwa [eq]
  exact ⟨_, shows, eq, fun range => kept.punctual pos' range (order pos' range), shows.isIdle⟩

/-- **When time has passed and the loop rests**, nothing is left that is due, and what has run has
run on time. -/
theorem punctual_advance {P : Program π} {p : π} (pos : 0 < frame)
    (reaches : Reaches P.logged (create (.frames { frame }) (p, [])) l) {ms : Nat}
    (ready : (l.advance P.logged ms).ready = []) (free : (l.advance P.logged ms).running = [])
    (ahead : ∀ a ∈ (l.advance P.logged ms).alarms, l.now + ms < a.1) :
    ∃ s : FrameService, (l.advance P.logged ms).Shows s ∧ s.queue.frame = frame ∧ s.IsIdle ∧
      (s.InRange → s.Punctual) := by
  have reaches' := reaches.trans (reaches_advance fun a mem => Nat.le_of_lt (ahead a mem))
  obtain ⟨s, shows, eq, onTime, idle⟩ := punctual pos reaches'
  exact ⟨s, shows, eq, idle ready free ahead, onTime⟩

end Loop

end Cadence
