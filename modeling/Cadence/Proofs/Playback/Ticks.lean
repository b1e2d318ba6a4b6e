import Cadence.Proofs.Playback.Clockwork
import Mathlib.Data.List.Nodup

/-!
# Ticks of a session

A tick is armed, then started, and it ends when its job does. Until it ends it is live. Ticks are
numbered by their generations, and the latest one is the only one that may act.

* `Session.fired`, `Session.live`: the generations of ticks that are started, or live at all;
* `Session.Numbered`, `Session.InOrder`: the invariant, without and with what playing needs;
* `Session.stable_inOrder`: every move keeps it, by one lemma for each thing that playback can do;
* `Session.stable_superseded`: a tick that may not act will never act;
* **`Session.one_live_tick`**: while playing there is one live tick that may act.
-/

namespace Cadence

variable {ε : Type}

namespace Session

/-- The generations of the ticks that are started and have not ended. -/
def fired (s : Session ε) : List Nat := s.queue.filterMap Job.tick?

/-- The generations of the ticks that have not ended. -/
def live (s : Session ε) : List Nat := s.armed.map (·.generation) ++ s.fired

/-- Ticks are numbered in the order in which they are armed, and no number is used twice. -/
structure Numbered (s : Session ε) : Prop where
  next : s.nextHandle = s.generation + 1
  handles : ∀ t ∈ s.armed, t.handle = t.generation
  bounded : ∀ g ∈ s.live, g ≤ s.generation
  nodup : s.live.Nodup

/-- While playing, the latest tick is the pending one, and it is live. A scheduler that cancels has
armed no other. -/
structure InOrder (s : Session ε) : Prop extends Numbered s where
  pending : s.pending = if s.playing then some s.generation else none
  current : s.playing = true → s.generation ∈ s.live
  others : s.cancels = true → ∀ t ∈ s.armed, s.isCurrent t.generation = true

theorem isCurrent_iff {s : Session ε} {g : Nat} :
    s.isCurrent g = true ↔ s.playing = true ∧ s.generation = g := by
  simp [isCurrent]

theorem live_eq {s s' : Session ε} (armed : s'.armed = s.armed) (queue : s'.queue = s.queue) :
    s'.live = s.live := by
  rw [live, fired, armed, queue, live, fired]

theorem InOrder.of_live {s s' : Session ε} (h : InOrder s) (playing : s'.playing = s.playing)
    (pending : s'.pending = s.pending) (generation : s'.generation = s.generation)
    (armed : s'.armed = s.armed) (next : s'.nextHandle = s.nextHandle)
    (cancels : s'.cancels = s.cancels) (live : s'.live = s.live) : InOrder s' := by
  refine ⟨⟨?_, ?_, ?_, ?_⟩, ?_, ?_, ?_⟩
  · rw [next, generation, h.next]
  · rw [armed]
    exact h.handles
  · rw [live, generation]
    exact h.bounded
  · rw [live]
    exact h.nodup
  · rw [pending, playing, generation, h.pending]
  · rw [playing, live, generation]
    exact h.current
  · unfold isCurrent
    rw [cancels, armed, playing, generation]
    exact h.others

theorem InOrder.of_eq {s s' : Session ε} (h : InOrder s) (eq : s'.clockwork = s.clockwork) :
    InOrder s' := by
  simp only [clockwork, Clockwork.mk.injEq] at eq
  obtain ⟨playing, pending, generation, armed, next, cancels, queue, -⟩ := eq
  exact h.of_live playing pending generation armed next cancels (live_eq armed queue)

/-! ## Arming and stopping -/

theorem InOrder.armed_eq_nil {s : Session ε} (h : InOrder s) (idle : s.playing = false)
    (cancels : s.cancels = true) : s.armed = [] := by
  refine List.eq_nil_iff_forall_not_mem.mpr fun t ht => ?_
  have := isCurrent_iff.mp (h.others cancels t ht)
  simp [idle] at this

theorem live_arm (s : Session ε) :
    s.arm.live = s.armed.map (·.generation) ++ (s.generation + 1) :: s.fired := by
  show (s.armed ++ [_]).map _ ++ s.fired = _
  simp

theorem Numbered.arm {s : Session ε} (h : Numbered s) (playing : s.playing = true)
    (empty : s.cancels = true → s.armed = []) : InOrder s.arm := by
  have fresh : s.generation + 1 ∉ s.live := fun mem => by
    have := h.bounded _ mem
    omega
  have perm : s.arm.live.Perm ((s.generation + 1) :: s.live) := by
    rw [live_arm]
    exact List.perm_middle
  refine ⟨⟨?_, ?_, ?_, ?_⟩, ?_, ?_, ?_⟩
  · show s.nextHandle + 1 = s.generation + 1 + 1
    rw [h.next]
  · intro t ht
    rcases List.mem_append.mp ht with old | new
    · exact h.handles t old
    · rw [List.mem_singleton.mp new]
      exact h.next
  · intro g hg
    show g ≤ s.generation + 1
    rcases List.mem_cons.mp (perm.mem_iff.mp hg) with rfl | old
    · exact Nat.le_refl _
    · exact Nat.le_succ_of_le (h.bounded g old)
  · exact perm.nodup_iff.mpr (List.nodup_cons.mpr ⟨fresh, h.nodup⟩)
  · show some s.nextHandle = if s.playing then some (s.generation + 1) else none
    rw [if_pos playing, h.next]
  · intro _
    exact perm.mem_iff.mpr List.mem_cons_self
  · intro cancels t ht
    rcases List.mem_append.mp ht with old | new
    · rw [empty cancels] at old
      exact absurd old List.not_mem_nil
    · rw [List.mem_singleton.mp new]
      exact isCurrent_iff.mpr ⟨playing, rfl⟩

theorem Numbered.stopped {s : Session ε} (h : Numbered s) (idle : s.playing = false)
    (pending : s.pending = none) (empty : s.cancels = true → s.armed = []) : InOrder s where
  toNumbered := h
  pending := by simp [pending, idle]
  current playing := by simp [idle] at playing
  others cancels t ht := by simp [empty cancels] at ht

theorem InOrder.playLimited {s : Session ε} (h : InOrder s) (interval : Nat) (limit : Option Nat) :
    InOrder (s.playLimited interval limit) := by
  unfold Session.playLimited
  split
  · exact h
  · next start =>
    have idle : s.playing = false := by
      rw [Bool.or_eq_true, not_or] at start
      simpa using start.1
    exact Numbered.arm ⟨h.next, h.handles, h.bounded, h.nodup⟩ rfl (h.armed_eq_nil idle)

theorem map_filter_handle {ts : List Tick} (h : ∀ t ∈ ts, t.handle = t.generation) (n : Nat) :
    (ts.filter (·.handle ≠ n)).map (·.generation) = (ts.map (·.generation)).filter (· ≠ n) := by
  rw [List.filter_map]
  congr 1
  refine List.filter_congr fun t ht => ?_
  simp [h t ht]

theorem live_sublist {s s' : Session ε} (armed : s'.armed.Sublist s.armed)
    (fired : s'.fired.Sublist s.fired) : s'.live.Sublist s.live :=
  (armed.map _).append fired

theorem Numbered.thinned {s s' : Session ε} (h : Numbered s) (next : s'.nextHandle = s.nextHandle)
    (generation : s'.generation = s.generation) (armed : s'.armed.Sublist s.armed)
    (fired : s'.fired.Sublist s.fired) : Numbered s' := by
  have live := live_sublist armed fired
  refine ⟨?_, ?_, ?_, ?_⟩
  · rw [next, generation, h.next]
  · intro t ht
    exact h.handles t (armed.subset ht)
  · intro g hg
    rw [generation]
    exact h.bounded g (live.subset hg)
  · exact live.nodup h.nodup

theorem InOrder.idle_of_pending {s : Session ε} (h : InOrder s) (none : s.pending = none) :
    s.playing = false := by
  have pending := h.pending
  rw [none] at pending
  simpa using pending

theorem InOrder.generation_of_pending {s : Session ε} (h : InOrder s) {handle : Nat}
    (some : s.pending = some handle) : handle = s.generation := by
  have pending := h.pending
  rw [some] at pending
  split at pending
  · exact Option.some.inj pending
  · exact absurd pending nofun

theorem armed_cancel_sublist (s : Session ε) (handle : Nat) :
    (s.cancel handle).armed.Sublist s.armed := by
  show List.Sublist (if s.cancels then s.armed.filter _ else s.armed) s.armed
  split
  · exact List.filter_sublist
  · exact List.Sublist.refl _

theorem InOrder.pause {s : Session ε} (h : InOrder s) : InOrder s.pause := by
  unfold Session.pause
  split
  · next none => exact h.of_eq (by simp [clockwork, h.idle_of_pending none])
  · next handle some =>
    obtain rfl := h.generation_of_pending some
    refine Numbered.stopped (h.thinned rfl rfl ?_ (List.Sublist.refl _)) rfl rfl ?_
    · exact armed_cancel_sublist { s with playing := false, pending := .none } _
    · intro (cancels : s.cancels = true)
      show (if s.cancels then s.armed.filter _ else s.armed) = []
      rw [if_pos cancels, List.filter_eq_nil_iff]
      intro t ht
      have current := isCurrent_iff.mp (h.others cancels t ht)
      simp [h.handles t ht, current.2]

/-! ## Starting and ending -/

theorem fired_enqueue (s : Session ε) (kind : JobKind ε) :
    (s.enqueue kind).fired = s.fired ++ (Job.tick? ⟨s.nextJob, kind⟩).toList := by
  unfold fired enqueue
  rw [List.filterMap_append]
  cases h : Job.tick? (⟨s.nextJob, kind⟩ : Job ε) <;> simp [h]

theorem InOrder.start {s : Session ε} (h : InOrder s) {tick : Tick} (armed : tick ∈ s.armed) :
    InOrder (s.start tick) := by
  have thinned : Numbered { s with armed := s.armed.filter (·.handle ≠ tick.handle) } :=
    h.thinned rfl rfl List.filter_sublist (List.Sublist.refl _)
  have gone : tick.generation ∉
      (s.armed.filter (·.handle ≠ tick.handle)).map (·.generation) := by
    rw [map_filter_handle h.handles, h.handles tick armed]
    simp
  have mem : tick.generation ∈ s.armed.map (·.generation) := List.mem_map_of_mem armed
  unfold Session.start
  dsimp only
  split
  · next current =>
    obtain ⟨playing, eq⟩ := isCurrent_iff.mp current
    have perm : Session.live (({ s with
        armed := s.armed.filter (·.handle ≠ tick.handle) } : Session ε).enqueue
          (.tick tick.generation)) |>.Perm (tick.generation ::
        Session.live { s with armed := s.armed.filter (·.handle ≠ tick.handle) }) := by
      rw [live, fired_enqueue, ← List.append_assoc]
      exact List.perm_append_singleton _ _
    have fresh : tick.generation ∉ s.fired := fun old =>
      List.disjoint_of_nodup_append h.nodup mem old
    refine ⟨⟨thinned.next, thinned.handles, ?_, ?_⟩, h.pending, ?_, ?_⟩
    · intro g hg
      rcases List.mem_cons.mp (perm.mem_iff.mp hg) with rfl | old
      · exact h.bounded _ (List.mem_append_left _ mem)
      · exact thinned.bounded g old
    · refine perm.nodup_iff.mpr (List.nodup_cons.mpr ⟨fun old => ?_, thinned.nodup⟩)
      exact (List.mem_append.mp old).elim gone fresh
    · intro _
      exact perm.mem_iff.mpr (eq ▸ List.mem_cons_self)
    · intro cancels t ht
      exact h.others cancels t (List.mem_of_mem_filter ht)
  · next superseded =>
    refine ⟨thinned, h.pending, ?_, ?_⟩
    · intro playing
      have other : s.generation ≠ tick.generation := fun eq =>
        superseded (isCurrent_iff.mpr ⟨playing, eq⟩)
      rcases List.mem_append.mp (h.current playing) with waiting | started
      · refine List.mem_append_left _ ?_
        show s.generation ∈ (s.armed.filter (·.handle ≠ tick.handle)).map (·.generation)
        rw [map_filter_handle h.handles, h.handles tick armed]
        exact List.mem_filter.mpr ⟨waiting, by simpa using other⟩
      · exact List.mem_append_right _ started
    · intro cancels t ht
      exact h.others cancels t (List.mem_of_mem_filter ht)

theorem fired_eq {s : Session ε} {job : Job ε} {rest : List (Job ε)}
    (head : s.queue = job :: rest) :
    s.fired = job.tick?.toList ++ rest.filterMap Job.tick? := by
  rw [fired, head]
  cases tick : job.tick? <;> simp [tick]

theorem InOrder.dequeue {s : Session ε} (h : InOrder s) {job : Job ε} {rest : List (Job ε)}
    (head : s.queue = job :: rest) (other : job.tick? = none) :
    InOrder { s with queue := rest } := by
  refine h.of_live rfl rfl rfl rfl rfl rfl ?_
  rw [live, live, fired_eq head, other]
  rfl

theorem live_enqueue_order (s : Session ε) (order : Order ε) :
    (s.enqueue (.order order)).live = s.live := by
  rw [live, live, fired_enqueue]
  exact congrArg _ (List.append_nil _)

/-- A job of a caller joins the queue and leaves ticks alone. -/
theorem InOrder.order {s : Session ε} (h : InOrder s) (order : Order ε) :
    InOrder (s.enqueue (.order order)) :=
  h.of_live rfl rfl rfl rfl rfl rfl (live_enqueue_order s order)

theorem perm_live {s : Session ε} {job : Job ε} {rest : List (Job ε)} {g : Nat}
    (head : s.queue = job :: rest) (tick : job.tick? = some g) :
    s.live.Perm (g :: Session.live { s with queue := rest }) := by
  rw [live, fired_eq head, tick]
  exact List.perm_middle

/-- A tick ends. If it may act, it stops or arms the next one. -/
theorem InOrder.commit {s : Session ε} (h : InOrder s) {job : Job ε} {rest : List (Job ε)} {g : Nat}
    (head : s.queue = job :: rest) (tick : job.tick? = some g) (snapshot : Snapshot) :
    InOrder (({ s with queue := rest } : Session ε).commit g snapshot) := by
  have perm := perm_live head tick
  have nodup := List.nodup_cons.mp (perm.nodup_iff.mp h.nodup)
  have thinned : Numbered { s with queue := rest } :=
    ⟨h.next, h.handles, fun n hn => h.bounded n (perm.mem_iff.mpr (List.mem_cons_of_mem _ hn)),
      nodup.2⟩
  unfold Session.commit
  split
  · next current =>
    obtain ⟨playing, now⟩ := isCurrent_iff.mp current
    -- an armed tick would be current too, and `g` is the only one of its generation
    have empty (cancels : s.cancels = true) : s.armed = [] := by
      refine List.eq_nil_iff_forall_not_mem.mpr fun t ht => nodup.1 ?_
      have latest := (isCurrent_iff.mp (h.others cancels t ht)).2
      rw [← now]
      show s.generation ∈ _
      rw [latest]
      exact List.mem_append_left _ (List.mem_map_of_mem ht)
    split
    · exact Numbered.stopped ⟨thinned.next, thinned.handles, thinned.bounded, thinned.nodup⟩ rfl rfl
        empty
    · exact thinned.arm playing empty
  · next superseded =>
    refine ⟨thinned, h.pending, fun playing => ?_, h.others⟩
    rcases List.mem_cons.mp (perm.mem_iff.mp (h.current playing)) with latest | other
    · exact absurd (isCurrent_iff.mpr ⟨playing, latest⟩) superseded
    · exact other

theorem stable_inOrder : Stable (InOrder : Session ε → Prop) where
  still := .of_eq
  pause := .pause
  play interval limit h := h.playLimited interval limit
  order order h := h.order order
  start armed h := h.start armed
  dequeue head other h := h.dequeue head other
  commit head tick snapshot h := h.commit head tick snapshot

theorem inOrder_fresh (cancels : Bool) (validator : Option (Record → List FieldError)) :
    InOrder ({ cancels, validator } : Session ε) :=
  Numbered.stopped ⟨rfl, nofun, nofun, List.nodup_nil⟩ rfl rfl fun _ => rfl

/-! ## Superseded ticks -/

/-- Playback has stopped or gone on to a later generation. -/
def Superseded (g : Nat) (s : Session ε) : Prop := g ≤ s.generation ∧ s.isCurrent g = false

theorem Superseded.of_eq {g : Nat} {s s' : Session ε} (h : Superseded g s)
    (playing : s'.playing = s.playing) (generation : s'.generation = s.generation) :
    Superseded g s' := by
  unfold Superseded isCurrent
  rw [playing, generation]
  exact h

theorem superseded_of_idle {g : Nat} {s : Session ε} (le : g ≤ s.generation)
    (idle : s.playing = false) : Superseded g s :=
  ⟨le, by simp [isCurrent, idle]⟩

theorem superseded_arm {g : Nat} {s : Session ε} (le : g ≤ s.generation) : Superseded g s.arm := by
  refine ⟨Nat.le_succ_of_le le, ?_⟩
  rw [← Bool.not_eq_true, isCurrent_iff]
  rintro ⟨-, eq⟩
  have later : s.generation + 1 = g := eq
  omega

theorem Superseded.pause {g : Nat} {s : Session ε} (h : Superseded g s) : Superseded g s.pause := by
  unfold Session.pause
  split
  · exact superseded_of_idle h.1 rfl
  · exact superseded_of_idle h.1 rfl

theorem Superseded.playLimited {g : Nat} {s : Session ε} (h : Superseded g s) (interval : Nat)
    (limit : Option Nat) : Superseded g (s.playLimited interval limit) := by
  unfold Session.playLimited
  split
  · exact h
  · exact superseded_arm h.1

theorem Superseded.start {g : Nat} {s : Session ε} (h : Superseded g s) (tick : Tick) :
    Superseded g (s.start tick) := by
  unfold Session.start
  dsimp only
  split
  · exact h.of_eq rfl rfl
  · exact h.of_eq rfl rfl

theorem Superseded.commit {g : Nat} {s : Session ε} (h : Superseded g s) (n : Nat)
    (snapshot : Snapshot) : Superseded g (s.commit n snapshot) := by
  unfold Session.commit
  split
  · split
    · exact superseded_of_idle h.1 rfl
    · exact superseded_arm h.1
  · exact h

theorem stable_superseded (g : Nat) : Stable (Superseded g : Session ε → Prop) where
  still h eq := h.of_eq (congrArg Clockwork.playing eq) (congrArg Clockwork.generation eq)
  pause h := h.pause
  play interval limit h := h.playLimited interval limit
  order _ h := h.of_eq rfl rfl
  start _ h := h.start _
  dequeue _ _ h := h.of_eq rfl rfl
  commit {s _ rest _} _ _ snapshot h :=
    Superseded.commit (s := { s with queue := rest }) (h.of_eq rfl rfl) _ snapshot

/-- A superseded tick ends as the step of a caller does. -/
theorem Superseded.conclude {g : Nat} {s : Session ε} (h : Superseded g s) (id : Nat)
    (snapshot : Snapshot) :
    s.conclude ⟨id, .tick g⟩ snapshot = s.conclude ⟨id, .order .step⟩ snapshot := by
  have idle : s.release.isCurrent g = false := by
    obtain ⟨log, -, eq⟩ := s.exists_release_eq
    rw [eq]
    exact h.2
  have same : s.release.commit g snapshot = s.release := by
    unfold Session.commit
    rw [idle]
    rfl
  rw [conclude_eq, conclude_eq]
  unfold Session.leave settle
  dsimp only
  rw [same]

/-! ## One live tick -/

theorem stable_cancels (cancels : Bool) : Stable fun s : Session ε => s.cancels = cancels where
  still h eq := (congrArg Clockwork.cancels eq).trans h
  pause {s} h := by
    show s.pause.cancels = cancels
    rw [← h]
    unfold Session.pause
    split <;> rfl
  play {s} interval limit h := by
    show (s.playLimited interval limit).cancels = cancels
    rw [← h]
    unfold playLimited
    split <;> rfl
  order _ h := h
  start {s tick} _ h := by
    show (s.start tick).cancels = cancels
    rw [← h]
    unfold start
    dsimp only
    split <;> rfl
  dequeue _ _ h := h
  commit {s _ rest g} _ _ snapshot h := by
    show (({ s with queue := rest } : Session ε).commit g snapshot).cancels = cancels
    rw [← h]
    unfold commit
    split
    · split <;> rfl
    · rfl

/-- **One live tick.** Whatever happens to a fresh session, something is pending exactly while it
plays, a scheduler that cancels has armed at most the pending tick, and exactly one live tick may
act while it plays. A tick that was superseded after it had started arms nothing any more: whenever
it ends, it ends as the step of a caller does. -/
theorem one_live_tick (S : Stepper ε) (cancels : Bool)
    (validator : Option (Record → List FieldError)) (actions : List (Action ε)) :
    let s := ({ cancels, validator } : Session ε).run S actions
    s.pending.isSome = s.playing ∧
    (cancels = true → s.armed.length ≤ 1 ∧
      ∀ t ∈ s.armed, s.pending = some t.handle ∧ t.generation = s.generation) ∧
    (s.playing = true → s.live.count s.generation = 1) ∧
    ∀ id g, ⟨id, .tick g⟩ ∈ s.queue → s.isCurrent g = false →
      ∀ (later : List (Action ε)) (snapshot : Snapshot),
        (s.run S later).conclude ⟨id, .tick g⟩ snapshot =
          (s.run S later).conclude ⟨id, .order .step⟩ snapshot := by
  intro s
  have inOrder : InOrder s := stable_inOrder.run S (inOrder_fresh cancels validator) actions
  have kept : s.cancels = cancels := (stable_cancels cancels).run S rfl actions
  refine ⟨?_, ?_, ?_, ?_⟩
  · rw [inOrder.pending]
    cases s.playing <;> rfl
  · intro cancelling
    have latest : ∀ t ∈ s.armed, s.playing = true ∧ s.generation = t.generation := fun t ht =>
      isCurrent_iff.mp (inOrder.others (kept.trans cancelling) t ht)
    refine ⟨?_, fun t ht => ?_⟩
    · have nodup : (s.armed.map (·.generation)).Nodup := (List.nodup_append.mp inOrder.nodup).1
      have equal : s.armed.map (·.generation) = .replicate s.armed.length s.generation := by
        refine List.eq_replicate_iff.mpr ⟨List.length_map _, fun g hg => ?_⟩
        obtain ⟨t, ht, rfl⟩ := List.mem_map.mp hg
        exact (latest t ht).2.symm
      rw [equal] at nodup
      exact List.nodup_replicate.mp nodup
    · obtain ⟨playing, eq⟩ := latest t ht
      rw [inOrder.pending, if_pos playing, inOrder.handles t ht, eq]
      exact ⟨rfl, rfl⟩
  · intro playing
    exact List.count_eq_one_of_mem inOrder.nodup (inOrder.current playing)
  · intro id g mem superseded later snapshot
    have fired : g ∈ s.fired := List.mem_filterMap.mpr ⟨_, mem, rfl⟩
    have le : g ≤ s.generation := inOrder.bounded g (List.mem_append_right _ fired)
    have never : Superseded g (s.run S later) :=
      (stable_superseded g).run S ⟨le, superseded⟩ later
    exact never.conclude id snapshot

/-- A tick is started while a caller steps the engine, and then the interval is changed. -/
def restartWhileWaiting : List (Action Engine) :=
  [.enter (.init (Engine.create default .empty .single .empty) none), .begin, .play 10 none,
    .enter .step, .begin, .fire 1, .setInterval 20]

/-- The old tick waits and the new one is armed. -/
theorem one_live_tick_of_restartWhileWaiting :
    let s := ({} : Session Engine).run Engine.stepper restartWhileWaiting
    s.armed.length ≤ 1 ∧ s.live.count s.generation = 1 ∧
    ∀ snapshot, (s.run Engine.stepper [.complete]).conclude ⟨2, .tick 1⟩ snapshot =
      (s.run Engine.stepper [.complete]).conclude ⟨2, .order .step⟩ snapshot := by
  intro s
  obtain ⟨-, armed, count, superseded⟩ :=
    one_live_tick Engine.stepper true none restartWhileWaiting
  have waits : ⟨2, .tick 1⟩ ∈ s.queue := List.mem_cons_of_mem _ List.mem_cons_self
  exact ⟨(armed rfl).1, count rfl, superseded 2 1 waits rfl [.complete]⟩

end Session

end Cadence
