import Cadence.Proofs.Playback.Ticks

/-!
# Ticks that wait for the engine

A started tick is current when it joins the queue. It is not looked at again before it steps the
engine, so what happens to playback while it waits comes too late for it.

* `Session.Recorded`: the invariant that ties live ticks to the log;
* `Session.stable_recorded`: every move keeps it;
* `Session.Halted`: no tick joins the queue while playback is stopped;
* **`Session.tick_current_iff`**: the tick that steps is current unless it was cancelled while it
  waited, and after a pause only ticks that wait already can step.
-/

namespace Cadence

variable {ε : Type}

namespace Session

/-- Every live tick was armed, no current tick was cancelled, and every live tick that is not
current was. -/
structure Recorded (s : Session ε) : Prop where
  armed : ∀ g ∈ s.live, ∃ delay, .armed ⟨g, g⟩ delay ∈ s.log
  cancelled : ∀ g, .cancelled g ∈ s.log → Superseded g s
  missed : ∀ g ∈ s.live, s.isCurrent g = false → .cancelled g ∈ s.log

theorem mem_log_iff {s s' : Session ε} {e : SessionEvent ε} (tick : e.isTick = true)
    (eq : s'.log.filter SessionEvent.isTick = s.log.filter SessionEvent.isTick) :
    e ∈ s'.log ↔ e ∈ s.log := by
  have mem : e ∈ s'.log.filter SessionEvent.isTick ↔ e ∈ s.log.filter SessionEvent.isTick := by
    rw [eq]
  rwa [List.mem_filter, List.mem_filter, and_iff_left tick, and_iff_left tick] at mem

theorem Recorded.of_subset {s s' : Session ε} (h : Recorded s) (live : s'.live ⊆ s.live)
    (playing : s'.playing = s.playing) (generation : s'.generation = s.generation)
    (log : s'.log.filter SessionEvent.isTick = s.log.filter SessionEvent.isTick) :
    Recorded s' := by
  refine ⟨?_, ?_, ?_⟩
  · intro g hg
    obtain ⟨delay, mem⟩ := h.armed g (live hg)
    exact ⟨delay, (mem_log_iff rfl log).mpr mem⟩
  · intro g mem
    exact (h.cancelled g ((mem_log_iff rfl log).mp mem)).of_eq playing generation
  · intro g hg superseded
    refine (mem_log_iff rfl log).mpr (h.missed g (live hg) ?_)
    unfold isCurrent at superseded ⊢
    rwa [playing, generation] at superseded

/-! ## Arming and stopping -/

theorem recorded_arm {s : Session ε} (playing : s.playing = true)
    (next : s.nextHandle = s.generation + 1)
    (armed : ∀ g ∈ s.live, ∃ delay, .armed ⟨g, g⟩ delay ∈ s.log)
    (bounded : ∀ g, .cancelled g ∈ s.log → g ≤ s.generation)
    (cancelled : ∀ g ∈ s.live, .cancelled g ∈ s.log) : Recorded s.arm := by
  have mem_live {g : Nat} (hg : g ∈ s.arm.live) : g = s.generation + 1 ∨ g ∈ s.live := by
    rw [live_arm] at hg
    exact List.mem_cons.mp (List.perm_middle.mem_iff.mp hg)
  have log : s.arm.log = .armed ⟨s.generation + 1, s.generation + 1⟩ s.interval :: s.log := by
    rw [← next]
    show _ :: s.log = _
    rw [next]
  refine ⟨?_, ?_, ?_⟩
  · intro g hg
    rw [log]
    rcases mem_live hg with rfl | old
    · exact ⟨s.interval, List.mem_cons_self⟩
    · obtain ⟨delay, mem⟩ := armed g old
      exact ⟨delay, List.mem_cons_of_mem _ mem⟩
  · intro g mem
    rw [log] at mem
    rcases List.mem_cons.mp mem with eq | old
    · cases eq
    · exact superseded_arm (bounded g old)
  · intro g hg superseded
    rw [log]
    rcases mem_live hg with rfl | old
    · have current : s.arm.isCurrent (s.generation + 1) = true := isCurrent_iff.mpr ⟨playing, rfl⟩
      exact absurd current (Bool.eq_false_iff.mp superseded)
    · exact List.mem_cons_of_mem _ (cancelled g old)

/-- Playback stops when all ticks that live are cancelled. -/
theorem Recorded.stopped {s : Session ε} (h : Recorded s)
    (cancelled : ∀ g ∈ s.live, .cancelled g ∈ s.log) :
    Recorded { s with playing := false, pending := none } where
  armed := h.armed
  cancelled g mem := superseded_of_idle (h.cancelled g mem).1 rfl
  missed g hg _ := cancelled g hg

theorem Recorded.playLimited {s : Session ε} (h : Recorded s) (inOrder : InOrder s) (interval : Nat)
    (limit : Option Nat) : Recorded (s.playLimited interval limit) := by
  unfold Session.playLimited
  split
  · exact h
  · next start =>
    have idle : s.playing = false := by
      rw [Bool.or_eq_true, not_or] at start
      simpa using start.1
    -- before it is armed, the session plays a generation that may be cancelled and is not on record
    refine recorded_arm rfl inOrder.next h.armed (fun g mem => (h.cancelled g mem).1) ?_
    intro g hg
    exact h.missed g hg (by simp [isCurrent, idle])

theorem Recorded.pause {s : Session ε} (h : Recorded s) (inOrder : InOrder s) :
    Recorded s.pause := by
  unfold Session.pause
  split
  · next none => exact h.of_subset (List.Subset.refl _) (inOrder.idle_of_pending none).symm rfl rfl
  · next handle some =>
    obtain rfl := inOrder.generation_of_pending some
    have live := (live_sublist (armed_cancel_sublist { s with playing := false, pending := .none }
      s.generation) (List.Sublist.refl _)).subset
    refine ⟨?_, ?_, ?_⟩
    · intro g hg
      obtain ⟨delay, mem⟩ := h.armed g (live hg)
      exact ⟨delay, List.mem_cons_of_mem _ mem⟩
    · intro g mem
      rcases List.mem_cons.mp mem with eq | old
      · cases eq
        exact superseded_of_idle (Nat.le_refl _) rfl
      · exact superseded_of_idle (h.cancelled g old).1 rfl
    · intro g hg _
      by_cases current : s.isCurrent g = true
      · rw [← (isCurrent_iff.mp current).2]
        exact List.mem_cons_self
      · exact List.mem_cons_of_mem _ (h.missed g (live hg) (by simpa using current))

/-! ## Starting and ending -/

theorem Recorded.start {s : Session ε} (h : Recorded s) {tick : Tick} (armed : tick ∈ s.armed) :
    Recorded (s.start tick) := by
  have thinned : ({ s with armed := s.armed.filter (·.handle ≠ tick.handle) } : Session ε).live ⊆
      s.live := by
    refine (live_sublist ?_ ?_).subset
    · exact List.filter_sublist
    · exact List.Sublist.refl _
  unfold Session.start
  dsimp only
  split
  · refine h.of_subset ?_ rfl rfl rfl
    intro g hg
    rw [live, fired_enqueue, ← List.append_assoc] at hg
    rcases List.mem_append.mp hg with old | new
    · exact thinned old
    · obtain rfl : g = tick.generation := List.mem_singleton.mp new
      exact List.mem_append_left _ (List.mem_map_of_mem armed)
  · exact h.of_subset thinned rfl rfl rfl

theorem Recorded.dequeue {s : Session ε} (h : Recorded s) {job : Job ε} {rest : List (Job ε)}
    (head : s.queue = job :: rest) : Recorded { s with queue := rest } := by
  have fired : Session.fired { s with queue := rest } ⊆ s.fired := by
    rw [fired_eq head]
    exact List.subset_append_right _ _
  exact h.of_subset (List.append_subset.mpr ⟨List.subset_append_left _ _,
    List.Subset.trans fired (List.subset_append_right _ _)⟩) rfl rfl rfl

/-- A tick ends. If it was current, all others that live are cancelled. -/
theorem Recorded.commit {s : Session ε} (h : Recorded s) (inOrder : InOrder s) {job : Job ε}
    {rest : List (Job ε)} {g : Nat} (head : s.queue = job :: rest) (tick : job.tick? = some g)
    (snapshot : Snapshot) :
    Recorded (({ s with queue := rest } : Session ε).commit g snapshot) := by
  have left := h.dequeue head
  have nodup := List.nodup_cons.mp ((perm_live head tick).nodup_iff.mp inOrder.nodup)
  unfold Session.commit
  split
  · next current =>
    obtain ⟨playing, now⟩ := isCurrent_iff.mp current
    have cancelled : ∀ n ∈ Session.live { s with queue := rest }, .cancelled n ∈ s.log := by
      intro n hn
      refine left.missed n hn ?_
      rw [← Bool.not_eq_true, isCurrent_iff]
      rintro ⟨-, rfl⟩
      exact nodup.1 (now ▸ hn)
    split
    · exact left.stopped cancelled
    · exact recorded_arm playing inOrder.next left.armed (fun n mem => (h.cancelled n mem).1)
        cancelled
  · exact left

theorem stable_recorded : Stable fun s : Session ε => InOrder s ∧ Recorded s where
  still h eq := by
    refine ⟨h.1.of_eq eq, h.2.of_subset ?_ ?_ ?_ ?_⟩
    · rw [live_eq (congrArg Clockwork.armed eq) (congrArg Clockwork.queue eq)]
      exact List.Subset.refl _
    · exact congrArg Clockwork.playing eq
    · exact congrArg Clockwork.generation eq
    · exact congrArg Clockwork.ticks eq
  pause h := ⟨h.1.pause, h.2.pause h.1⟩
  play interval limit h := ⟨h.1.playLimited interval limit, h.2.playLimited h.1 interval limit⟩
  order order h := by
    refine ⟨h.1.order order, h.2.of_subset ?_ rfl rfl rfl⟩
    rw [live_enqueue_order]
    exact List.Subset.refl _
  start armed h := ⟨h.1.start armed, h.2.start armed⟩
  dequeue head other h := ⟨h.1.dequeue head other, h.2.dequeue head⟩
  commit head tick snapshot h :=
    ⟨h.1.commit head tick snapshot, h.2.commit h.1 head tick snapshot⟩

/-! ## While playback is stopped -/

/-- As long as no tick is armed, playback stays stopped and no tick joins those that wait. -/
def Halted (generation : Nat) (waiting : List (Job ε)) (s : Session ε) : Prop :=
  generation ≤ s.generation ∧ (s.generation = generation →
    s.playing = false ∧ ∀ job ∈ s.queue, job.tick?.isSome = true → job ∈ waiting)

variable {n : Nat} {waiting : List (Job ε)}

theorem Halted.of_eq {s s' : Session ε} (h : Halted n waiting s) (playing : s'.playing = s.playing)
    (generation : s'.generation = s.generation)
    (queue : ∀ job ∈ s'.queue, job.tick?.isSome = true → job ∈ s.queue) : Halted n waiting s' := by
  unfold Halted
  rw [playing, generation]
  refine ⟨h.1, fun eq => ⟨(h.2 eq).1, fun job mem tick => ?_⟩⟩
  exact (h.2 eq).2 job (queue job mem tick) tick

theorem Halted.stopped {s s' : Session ε} (h : Halted n waiting s) (idle : s'.playing = false)
    (generation : s'.generation = s.generation) (queue : s'.queue = s.queue) :
    Halted n waiting s' := by
  unfold Halted
  rw [idle, generation, queue]
  exact ⟨h.1, fun eq => ⟨rfl, (h.2 eq).2⟩⟩

theorem halted_arm {s : Session ε} (le : n ≤ s.generation) : Halted n waiting s.arm := by
  refine ⟨Nat.le_succ_of_le le, fun eq => ?_⟩
  have later : s.generation + 1 = n := eq
  omega

theorem Halted.pause {s : Session ε} (h : Halted n waiting s) : Halted n waiting s.pause := by
  unfold Session.pause
  split
  · exact h.stopped rfl rfl rfl
  · exact h.stopped rfl rfl rfl

theorem Halted.playLimited {s : Session ε} (h : Halted n waiting s) (interval : Nat)
    (limit : Option Nat) : Halted n waiting (s.playLimited interval limit) := by
  unfold Session.playLimited
  split
  · exact h
  · exact halted_arm h.1

theorem Halted.start {s : Session ε} (h : Halted n waiting s) (tick : Tick) :
    Halted n waiting (s.start tick) := by
  unfold Session.start
  dsimp only
  split
  · next current =>
    obtain ⟨playing, -⟩ := isCurrent_iff.mp current
    refine ⟨h.1, fun eq => ?_⟩
    exact absurd ((h.2 eq).1.symm.trans playing) Bool.false_ne_true
  · exact h.of_eq rfl rfl fun _ mem _ => mem

theorem Halted.commit {s : Session ε} (h : Halted n waiting s) (g : Nat) (snapshot : Snapshot) :
    Halted n waiting (s.commit g snapshot) := by
  unfold Session.commit
  split
  · split
    · exact h.stopped rfl rfl rfl
    · exact halted_arm h.1
  · exact h

theorem stable_halted (n : Nat) (waiting : List (Job ε)) : Stable (Halted n waiting) where
  still {s s'} h eq := by
    have queue : s'.queue = s.queue := congrArg Clockwork.queue eq
    refine h.of_eq (congrArg Clockwork.playing eq) (congrArg Clockwork.generation eq) ?_
    rw [queue]
    exact fun _ mem _ => mem
  pause h := h.pause
  play interval limit h := h.playLimited interval limit
  order order h := by
    refine h.of_eq rfl rfl fun job mem tick => ?_
    rcases List.mem_append.mp mem with old | new
    · exact old
    · rw [List.mem_singleton.mp new] at tick
      exact absurd tick nofun
  start _ h := h.start _
  dequeue head _ h := h.of_eq rfl rfl fun _ mem _ => head ▸ List.mem_cons_of_mem _ mem
  commit {s _ rest _} head _ snapshot h :=
    Halted.commit (s := { s with queue := rest })
      (h.of_eq rfl rfl fun _ mem _ => head ▸ List.mem_cons_of_mem _ mem) _ snapshot

theorem halted_pause (s : Session ε) : Halted s.generation s.queue s.pause := by
  unfold pause
  split
  · exact ⟨Nat.le_refl _, fun _ => ⟨rfl, fun _ mem _ => mem⟩⟩
  · exact ⟨Nat.le_refl _, fun _ => ⟨rfl, fun _ mem _ => mem⟩⟩

/-! ## Which ticks step the engine -/

/-- **Which ticks step the engine.** A tick that begins to step the engine may act, unless it was
cancelled while it waited in the queue. After a pause, and as long as no tick is armed again, no
tick steps the engine but those that had been waiting. -/
theorem tick_current_iff (S : Stepper ε) (cancels : Bool)
    (validator : Option (Record → List FieldError)) (actions : List (Action ε)) (id g : Nat)
    (e : ε) :
    let s := ({ cancels, validator } : Session ε).run S actions
    ((s.begin S).log = .stepping ⟨id, .tick g⟩ e :: s.log →
      ∃ handle delay, .armed ⟨handle, g⟩ delay ∈ s.log ∧
        (s.isCurrent g = true ↔ .cancelled handle ∉ s.log)) ∧
    ∀ later : List (Action ε), let t := s.pause.run S later
      t.generation = s.generation → (t.begin S).log = .stepping ⟨id, .tick g⟩ e :: t.log →
        ⟨id, .tick g⟩ ∈ s.queue := by
  intro s
  have fresh : ({ cancels, validator } : Session ε).Recorded := ⟨nofun, nofun, nofun⟩
  have kept : InOrder s ∧ Recorded s :=
    stable_recorded.run S ⟨inOrder_fresh cancels validator, fresh⟩ actions
  refine ⟨fun begun => ?_, ?_⟩
  · have live : g ∈ s.live :=
      List.mem_append_right _ (List.mem_filterMap.mpr ⟨_, (begin_stepping begun).1, rfl⟩)
    obtain ⟨delay, armed⟩ := kept.2.armed g live
    refine ⟨g, delay, armed, fun current cancelled => ?_, fun uncancelled => ?_⟩
    · exact absurd current (by simp [(kept.2.cancelled g cancelled).2])
    · by_contra superseded
      exact uncancelled (kept.2.missed g live (by simpa using superseded))
  · intro later t unarmed begun
    have halted : Halted s.generation s.queue t := 
      (stable_halted s.generation s.queue).run S (halted_pause s) later
    exact (halted.2 unarmed).2 _ (begin_stepping begun).1 rfl

/-- A tick is started while a caller steps the engine, and then playback is stopped. -/
def pauseWhileWaiting : List (Action Engine) :=
  [.enter (.init (Engine.create default .empty .single .empty) none), .begin, .play 10 none,
    .enter .step, .begin, .fire 1, .pause, .complete]

/-- The tick was armed, and it had been waiting when playback was stopped. -/
theorem armed_and_waiting_of_pauseWhileWaiting :
    (∃ handle delay, let s := ({} : Session Engine).run Engine.stepper pauseWhileWaiting
      .armed ⟨handle, 1⟩ delay ∈ s.log ∧ (s.isCurrent 1 = true ↔ .cancelled handle ∉ s.log)) ∧
    ⟨2, .tick 1⟩ ∈ (({} : Session Engine).run Engine.stepper (pauseWhileWaiting.take 6)).queue :=
  ⟨(tick_current_iff Engine.stepper true none pauseWhileWaiting 2 1 _).1 rfl,
    (tick_current_iff Engine.stepper true none (pauseWhileWaiting.take 6) 2 1 _).2
      [.complete] rfl rfl⟩

/-- The tick steps the engine although playback is stopped. -/
theorem tick_idle_of_pauseWhileWaiting :
    ∃ e, let s := ({} : Session Engine).run Engine.stepper pauseWhileWaiting
      s.playing = false ∧ s.isCurrent 1 = false ∧
      (s.begin Engine.stepper).log = .stepping ⟨2, .tick 1⟩ e :: s.log :=
  ⟨_, rfl, rfl, rfl⟩

end Session

end Cadence
