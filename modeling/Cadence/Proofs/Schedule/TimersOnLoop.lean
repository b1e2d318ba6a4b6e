import Cadence.Proofs.Schedule.Arbiter
import Cadence.Proofs.Schedule.OnLoop

/-!
# Timers on the loop

A loop with timers is a service: whatever happens to the loop, its clock, its queue and the tasks
that it runs are those of a run of `TimerService`, and tasks start when the program is first asked
to go on with them.

* `Loop.Times`: the loop is as the service;
* `Loop.Times.schedule`, `Loop.Times.cancel`, `Loop.Times.poll`, `Loop.Times.ring`: one lemma for
  each thing that can happen;
* **`Loop.Reaches.times`**: a loop is as a service, whatever has become of it;
* **`Loop.arbitrated`**: its tasks run at most once, unless they are cancelled.
-/

namespace Cadence.Loop

variable {π : Type} {l l' : Loop (π × List (Nat × Nat))} {s : TimerService}

/-- The loop has the clock, the queue and the running tasks of a service that has been running since
it began, and the log has its starts. Alarms are to come. -/
structure Times (l : Loop (π × List (Nat × Nat))) (s : TimerService) : Prop where
  source : ∃ actions, s = TimerService.run {} actions
  scheduler : l.scheduler = .timer s.queue true
  now : s.now = l.now
  running : s.running = l.running
  starts : s.starts.map (fun x => (x.1, x.2 * nanosPerMilli)) = firsts l.program.2
  ahead : ∀ a ∈ l.alarms, l.now ≤ a.1

theorem times_create (p : π) : (create (.timer {} true) (p, [])).Times {} where
  source := ⟨[], rfl⟩
  scheduler := rfl
  now := rfl
  running := rfl
  starts := rfl
  ahead := nofun

theorem Times.kept (h : l.Times s) : TimerService.Kept s := by
  obtain ⟨actions, eq⟩ := h.source
  rw [eq]
  exact TimerService.kept_run actions

theorem Times.source_run (h : l.Times s) (more : List TimerService.Action) :
    ∃ actions, s.run more = TimerService.run {} actions := by
  obtain ⟨actions, eq⟩ := h.source
  exact ⟨actions ++ more, by rw [eq, TimerService.run_append]⟩

/-! ## Requests -/

theorem Times.roused (h : l.Times s) (ready : List Strand) (summoned : Bool) :
    ({ l with ready, summoned } : Loop _).Times s := { h with }

theorem Times.wake (h : l.Times s) (x : Strand) : (l.wake x).Times s := by
  obtain ⟨ready, summoned, eq, -⟩ := exists_wake l x
  rw [eq]
  exact h.roused ready summoned

theorem Times.schedule (h : l.Times s) (delay : Nat) :
    ∃ actions, (l.schedule delay).1.Times (s.run actions) := by
  obtain ⟨spawning, recording, ran⟩ := h.kept.run_schedule delay
  have source := h.source_run [.reserve delay, .spawn s.queue.nextId, .record s.queue.nextId]
  have eq : l.schedule delay =
      (({ l with scheduler := .timer (s.queue.schedule delay).1 true } : Loop _).wake
        (.sleeper s.queue.nextId), s.queue.nextId) := by
    unfold Loop.schedule
    rw [h.scheduler]
    rfl
  refine ⟨[.reserve delay, .spawn s.queue.nextId, .record s.queue.nextId], ?_⟩
  rw [ran] at source ⊢
  rw [eq]
  have times : ({ l with scheduler := .timer (s.queue.schedule delay).1 true } : Loop _).Times _ :=
    { h with source, scheduler := rfl }
  exact times.wake (.sleeper s.queue.nextId)

theorem Times.cancel (h : l.Times s) (id : Nat) : (l.cancel id).Times (s.act (.cancel id)) := by
  have source := h.source_run [.cancel id]
  have running : (s.act (.cancel id)).running = l.running := h.kept.running_cancel.trans h.running
  unfold Loop.cancel
  rw [h.scheduler]
  dsimp only
  split
  · exact { h with
      source, running, scheduler := rfl
      ahead := fun a mem => h.ahead a (List.mem_of_mem_filter mem) }
  · next free =>
    have free : id ∉ s.queue.pendingIds := fun mem =>
      free (by rw [TimerQueue.isPending_iff.mpr mem]; rfl)
    have queue : (s.act (.cancel id)).queue = s.queue := TimerQueue.cancel_of_not_pending free
    exact { h with source, running, scheduler := by rw [queue, h.scheduler] }

theorem Times.serve (h : l.Times s) (r : Request) :
    ∃ actions, (l.serve r).Times (s.run actions) := by
  cases r with
  | schedule delay => exact h.schedule delay
  | cancel id => exact ⟨[.cancel id], h.cancel id⟩
  | wake w => exact ⟨[], h.wake _⟩

theorem Times.serveAll (h : l.Times s) (requests : List Request) :
    ∃ actions, (requests.foldl Loop.serve l).Times (s.run actions) := by
  induction requests generalizing l s with
  | nil => exact ⟨[], h⟩
  | cons r requests ih =>
    obtain ⟨first, times⟩ := h.serve r
    obtain ⟨rest, times⟩ := ih times
    exact ⟨first ++ rest, by rwa [TimerService.run_append]⟩

/-! ## Work -/

/-- **A piece of work goes on.** -/
theorem Times.work (P : Program π) {w : Work} {x : Strand}
    (h : ({ l with program := (P.logged.poll l.now l.program w).1 } : Loop _).Times s) :
    ∃ actions, (l.work P.logged w x).Times (s.run actions) := by
  rcases polled : P.logged.poll l.now l.program w with ⟨program, requests, outcome⟩
  rw [polled] at h
  obtain ⟨actions, times⟩ := h.serveAll requests
  unfold Loop.work
  rw [polled]
  dsimp only
  split
  · exact ⟨actions, { times with
      ahead := ahead_setAlarm times.ahead (Nat.le_add_right _ _) _ }⟩
  · exact ⟨actions, times⟩
  · next id =>
    refine ⟨actions ++ [.finish id], ?_⟩
    rw [TimerService.run_append]
    have finished : ({ requests.foldl Loop.serve { l with program } with
        running := (requests.foldl Loop.serve { l with program }).running.filter (· ≠ id) } :
        Loop _).Times ((s.run actions).act (.finish id)) :=
      { times with
        source := times.source_run [.finish id]
        running := congrArg (List.filter (· ≠ id)) times.running }
    split
    · exact { finished with }
    · exact finished
  · exact ⟨actions, times⟩

theorem Times.workBeside (h : l.Times s) (P : Program π) {w : Work} (x : Strand)
    (other : ∀ id, w ≠ .scheduled id) : ∃ actions, (l.work P.logged w x).Times (s.run actions) := by
  have log : (P.logged.poll l.now l.program w).1.2 = l.program.2 := P.logged_of_other other
  refine Times.work P { h with starts := ?_ }
  show _ = firsts (P.logged.poll l.now l.program w).1.2
  rw [log]
  exact h.starts

theorem Times.logged_iff (h : l.Times s) {id : Nat} :
    id ∈ (firsts l.program.2).map (·.1) ↔ id ∈ s.startedIds := by
  rw [← h.starts, List.map_map]
  rfl

theorem Times.goOn (h : l.Times s) {id : Nat} (running : id ∈ l.running) (P : Program π) :
    ({ l with program := (P.logged.poll l.now l.program (.scheduled id)).1 } : Loop _).Times s := by
  have old : id ∈ (firsts l.program.2).map (·.1) :=
    h.logged_iff.mpr (h.kept.busy (h.running ▸ running))
  refine { h with starts := ?_ }
  show _ = firsts (l.program.2 ++ [(id, l.now * nanosPerMilli)])
  rw [firsts_append, addFirst, if_pos old]
  exact h.starts

theorem Times.start (h : l.Times s) {id : Nat} {q : TimerQueue}
    (claimed : s.queue.look l.now id = (q, .claimed)) (P : Program π) :
    ({ l with
      scheduler := .timer q true
      running := l.running ++ [id]
      program := (P.logged.poll l.now l.program (.scheduled id)).1 } : Loop _).Times
        (s.act (.look id)) := by
  have wakes : s.Wakes id := by
    unfold TimerService.Wakes
    rw [h.now]
    rcases s.queue.look_cases l.now id with ⟨-, eq⟩ | ⟨x, found, ⟨-, eq⟩ | ⟨come, -⟩⟩
    · cases eq.symm.trans claimed
    · cases eq.symm.trans claimed
    · exact ⟨x, found, come⟩
  have new : id ∉ (firsts l.program.2).map (·.1) :=
    mt h.logged_iff.mp (h.kept.unstarted_of_wakes wakes).2
  have act : s.act (.look id) =
      { s with queue := q, running := s.running ++ [id], starts := s.starts ++ [(id, s.now)] } := by
    dsimp only [TimerService.act]
    rw [h.now, claimed]
  have source := h.source_run [.look id]
  rw [show s.run [.look id] = s.act (.look id) from rfl, act] at source
  rw [act]
  refine { h with source, scheduler := rfl, running := ?_, starts := ?_ }
  · rw [h.running]
  · show (s.starts ++ [(id, s.now)]).map _ = firsts (l.program.2 ++ [(id, l.now * nanosPerMilli)])
    rw [firsts_append, addFirst, if_neg new, ← h.starts, List.map_append, h.now]
    rfl

/-- A sleeper that does not start its task sleeps on or ends. -/
theorem Times.look (h : l.Times s) {id : Nat} {q : TimerQueue} {status : SleeperStatus}
    (looked : s.queue.look l.now id = (q, status)) (unclaimed : status ≠ .claimed) :
    ({ l with scheduler := .timer q true } : Loop _).Times (s.act (.look id)) := by
  have act : s.act (.look id) = { s with queue := q } := by
    dsimp only [TimerService.act]
    rw [h.now, looked]
    cases status with
    | claimed => exact absurd rfl unclaimed
    | asleep | gone => rfl
  have source := h.source_run [.look id]
  rw [show s.run [.look id] = s.act (.look id) from rfl, act] at source
  rw [act]
  exact { h with source, scheduler := rfl }

theorem lt_of_asleep {q q' : TimerQueue} {now id due : Nat}
    (asleep : q.look now id = (q', .asleep due)) : now < due := by
  rcases q.look_cases now id with ⟨-, eq⟩ | ⟨x, -, ⟨early, eq⟩ | ⟨-, eq⟩⟩
  · cases eq.symm.trans asleep
  · cases eq.symm.trans asleep
    exact early
  · unfold TimerQueue.wake at eq
    split at eq <;> cases eq.symm.trans asleep

/-- **A sleeper goes on**, or it looks at the clock. -/
theorem Times.pollSleeper (h : l.Times s) (P : Program π) (id : Nat) :
    ∃ actions, (l.pollSleeper P.logged id).Times (s.run actions) := by
  unfold Loop.pollSleeper
  rw [h.scheduler]
  dsimp only
  split
  · next running =>
    unfold Loop.workOn
    rw [if_pos running]
    exact (h.goOn (by simpa [isRunning] using running) P).work P
  · next free =>
    rcases looked : s.queue.look l.now id with ⟨q, status⟩
    dsimp only
    cases status with
    | asleep due =>
      have later := Nat.le_of_lt (lt_of_asleep looked)
      have times := h.look looked (by simp)
      exact ⟨[.look id], { times with ahead := ahead_setAlarm times.ahead later _ }⟩
    | claimed =>
      let begun : Loop (π × List (Nat × Nat)) :=
        { l with scheduler := .timer q true, running := l.running ++ [id] }
      obtain ⟨actions, times⟩ := Times.work (l := begun) (x := .sleeper id) P (h.start looked P)
      refine ⟨.look id :: actions, ?_⟩
      unfold Loop.workOn isRunning at *
      dsimp only
      rw [if_neg free]
      exact times
    | gone => exact ⟨[.look id], h.look looked (by simp)⟩

/-! ## Turns -/

theorem Times.poll (h : l.Times s) (P : Program π) (x : Strand) :
    ∃ actions, (Loop.poll P.logged l x).Times (s.run actions) := by
  cases x with
  | sleeper id => exact h.pollSleeper P id
  | driver =>
    have same : pollDriver P.logged l = l := by
      unfold Loop.pollDriver
      rw [h.scheduler]
    refine ⟨[], ?_⟩
    rw [Loop.poll, same]
    exact h
  | foreground => exact h.workBeside P _ (by simp)
  | spawned n => exact h.workBeside P _ (by simp)

theorem Times.pass (h : l.Times s) {time : Nat} (later : l.now ≤ time)
    {alarms : List (Nat × Strand)} (ahead : ∀ a ∈ alarms, time ≤ a.1) :
    ({ l with now := time, alarms } : Loop _).Times (s.act (.pass (time - l.now))) := by
  have now : s.now + (time - l.now) = time := by
    rw [h.now]
    exact Nat.add_sub_cancel' later
  exact { h with source := h.source_run [.pass (time - l.now)], now, ahead }

/-- **The alarms of a time go off.** -/
theorem Times.ring (h : l.Times s) (P : Program π) {time : Nat} (later : l.now ≤ time) :
    ∃ actions, (Loop.ring P.logged time l).Times (s.run actions) := by
  let alarms := l.alarms.filter fun a => !decide (a.1 ≤ time)
  have ahead : ∀ a ∈ alarms, time ≤ a.1 := fun a mem => le_of_rung mem
  obtain ⟨ready, summoned, eq, -⟩ :=
    exists_wakeAll (l.alarms.filter (·.1 ≤ time)) { l with now := time, alarms }
  have passed := h.pass later ahead
  unfold Loop.ring
  dsimp only
  rw [eq]
  split
  · obtain ⟨actions, times⟩ := (passed.roused ready false).poll P .foreground
    exact ⟨.pass (time - l.now) :: actions, times⟩
  · exact ⟨[.pass (time - l.now)], passed.roused ready summoned⟩

/-! ## Whatever happens to a loop -/

theorem Step.times {P : Program π} (step : Step P.logged l l') (h : l.Times s) :
    ∃ actions, l'.Times (s.run actions) := by
  cases step with
  | scheduled delay => exact h.schedule delay
  | cancelled id => exact ⟨[.cancel id], h.cancel id⟩
  | @polled x r ready => exact (h.roused r l.summoned).poll P x
  | summoned => exact (h.roused l.ready false).poll P .foreground
  | rang next =>
    obtain ⟨a, mem, rfl⟩ := List.mem_map.mp (List.min?_eq_some_iff.mp next).1
    exact h.ring P (h.ahead a mem)
  | passed later calm => exact ⟨[.pass _], h.pass later calm⟩

/-- **A loop stays a service**, and its history goes on. -/
theorem Reaches.times {P : Program π} (reaches : Reaches P.logged l l') (h : l.Times s) :
    ∃ actions, l'.Times (s.run actions) := by
  induction reaches with
  | refl => exact ⟨[], h⟩
  | tail _ step ih =>
    obtain ⟨actions, times⟩ := ih
    obtain ⟨more, times⟩ := step.times times
    exact ⟨actions ++ more, by rwa [TimerService.run_append]⟩

/-- **A loop runs its tasks at most once, unless they are cancelled**: what a program logs are the
starts of a service whose entries decide. -/
theorem arbitrated {P : Program π} {p : π}
    (reaches : Reaches P.logged (create (.timer {} true) (p, [])) l) :
    ∃ s : TimerService, l.Times s ∧ s.Arbitrated := by
  obtain ⟨actions, times⟩ := reaches.times (times_create p)
  exact ⟨_, times, times.kept.arbitrated⟩

/-- **Whatever is awaited**, the entries go on deciding. -/
theorem arbitrated_await {P : Program π} {p : π}
    (reaches : Reaches P.logged (create (.timer {} true) (p, [])) l) (stop : _ → Bool) :
    ∃ s : TimerService, (l.await P.logged stop).Times s ∧ s.Arbitrated :=
  arbitrated (reaches.trans (reaches_await stop l))

end Cadence.Loop
