import Cadence.Proofs.Playback.Move

/-!
# The limit of playback

A limit is compared with the last broadcast snapshot when playback starts, and with its own snapshot
when a tick ends. It is not compared with anything when a tick begins. In between, callers may step
the engine or bind another one.

* `SessionEvent.sinceArmed`: the latest broadcast after the latest tick was armed;
* `Session.Tracked`: the invariant that ties the engine, the last snapshot and the limit to it;
* `Session.Move.tracked`: every move keeps it;
* **`Session.tick_at_limit_iff`**: when a tick steps an engine that has reached the limit.
-/

namespace Cadence

variable {ε : Type}

/-- The latest broadcast in a log, unless a tick was armed after it. -/
def SessionEvent.sinceArmed : List (SessionEvent ε) → Option Snapshot
  | [] => none
  | .armed _ _ :: _ => none
  | .broadcast snapshot :: _ => some snapshot
  | _ :: log => sinceArmed log

/-- A step counts at most once. -/
def Stepper.CountsByOne (S : Stepper ε) : Prop :=
  ∀ e, (S.snapshot (S.step e)).stepCount ≤ (S.snapshot e).stepCount + 1

theorem Engine.stepper_countsByOne : Engine.stepper.CountsByOne := by
  intro e
  show e.step.stepCount ≤ e.stepCount + 1
  unfold Engine.step
  split
  · exact Nat.le_succ _
  · exact Nat.le_refl _

namespace Session

/-- The latest broadcast, unless a tick was armed after it. -/
def sinceArmed (s : Session ε) : Option Snapshot := SessionEvent.sinceArmed s.log

/-- The last snapshot counts the steps of the engine. It is the latest broadcast since a tick was
armed, and before there is one it is below the limit. -/
structure Tracked (S : Stepper ε) (s : Session ε) : Prop where
  engine : ∀ e, s.engine = some e → (S.snapshot e).stepCount = s.last.stepCount
  latest : ∀ b, s.sinceArmed = some b → b = s.last
  below : ∀ max, s.sinceArmed = none → s.limit = some max → s.last.stepCount < max

variable {S : Stepper ε}

theorem Tracked.of_eq {s s' : Session ε} (h : Tracked S s)
    (engine : ∀ e, s'.engine = some e → s.engine = some e) (last : s'.last = s.last)
    (limit : s'.limit = s.limit) (since : s'.sinceArmed = s.sinceArmed) : Tracked S s' := by
  refine ⟨?_, ?_, ?_⟩
  · intro e some
    rw [last]
    exact h.engine e (engine e some)
  · rw [since, last]
    exact h.latest
  · rw [since, limit, last]
    exact h.below

theorem tracked_announce {s : Session ε} {snapshot : Snapshot}
    (engine : ∀ e, s.engine = some e → (S.snapshot e).stepCount = snapshot.stepCount) :
    Tracked S (s.announce snapshot) where
  engine := engine
  latest _ h := (Option.some.inj h).symm
  below _ h := nomatch h

theorem Tracked.pause {s : Session ε} (h : Tracked S s) : Tracked S s.pause := by
  unfold Session.pause
  split
  · exact h.of_eq (fun _ => id) rfl rfl rfl
  · exact h.of_eq (fun _ => id) rfl rfl rfl

theorem Tracked.playLimited {s : Session ε} (h : Tracked S s) (interval : Nat)
    (limit : Option Nat) : Tracked S (s.playLimited interval limit) := by
  unfold Session.playLimited
  split
  · exact h
  · next start =>
    refine ⟨h.engine, nofun, ?_⟩
    intro max _ (some : limit = some max)
    rw [Bool.or_eq_true, not_or, some] at start
    show s.last.stepCount < max
    simpa [atLimit] using start.2

theorem sinceArmed_release (s : Session ε) : s.release.sinceArmed = s.sinceArmed := by
  obtain ⟨log, rfl | ⟨job, rfl⟩, eq⟩ := s.exists_release_eq
  · rw [eq]; rfl
  · rw [eq]; rfl

theorem Tracked.release {s : Session ε} (h : Tracked S s) : Tracked S s.release := by
  have since := s.sinceArmed_release
  obtain ⟨log, -, eq⟩ := s.exists_release_eq
  rw [eq] at since ⊢
  exact h.of_eq (fun _ => id) rfl rfl since

theorem engine_release (s : Session ε) : s.release.engine = s.engine := by
  obtain ⟨log, -, eq⟩ := s.exists_release_eq
  rw [eq]

theorem engine_settle (s : Session ε) (job : Job ε) (snapshot : Snapshot) :
    (s.settle job snapshot).engine = s.engine := by
  rw [← s.engine_release]
  unfold settle commit
  split
  · split
    · split <;> rfl
    · rfl
  · rfl

theorem tracked_leave {s : Session ε} (job : Job ε) {snapshot : Snapshot}
    (engine : ∀ e, s.engine = some e → (S.snapshot e).stepCount = snapshot.stepCount) :
    Tracked S (s.leave job snapshot) := by
  refine tracked_announce ?_
  rw [engine_settle]
  exact engine

theorem Tracked.shutEngine {s : Session ε} (h : Tracked S s) : Tracked S (s.shutEngine S) := by
  unfold Session.shutEngine
  split
  · exact h
  · exact h.of_eq nofun rfl rfl rfl

theorem Move.tracked {s s' : Session ε} (m : Move S s s') (h : Tracked S s) : Tracked S s' := by
  cases m with
  | paused => exact h.pause
  | played interval limit => exact h.playLimited interval limit
  | paced | subscribed | called | ordered | begun | finished =>
    exact h.of_eq (fun _ => id) rfl rfl rfl
  | unsubscribed name =>
    unfold unsubscribe
    split
    · exact h
    · exact h.of_eq (fun _ => id) rfl rfl rfl
  | started =>
    unfold start
    dsimp only
    split
    · exact h.of_eq (fun _ => id) rfl rfl rfl
    · exact h.of_eq (fun _ => id) rfl rfl rfl
  | unbound _ _ _ engine =>
    refine tracked_leave _ fun e some => ?_
    rw [engine] at some
    cases some
  | rejected _ _ _ engine =>
    refine tracked_leave _ fun e some => ?_
    rw [engine] at some
    cases some
    rfl
  | completed =>
    refine tracked_leave _ fun e some => ?_
    cases some
    rfl
  | ignored => exact h.release
  | replaced | bound =>
    refine tracked_announce fun e some => ?_
    rw [engine_release] at some
    cases some
    rfl
  | removed => exact h.shutEngine.release.of_eq (fun _ => id) rfl rfl rfl

theorem tracked_fresh (cancels : Bool) (validator : Option (Record → List FieldError)) :
    Tracked S ({ cancels, validator } : Session ε) :=
  ⟨nofun, nofun, nofun⟩

/-! ## Ticks at the limit -/

/-- **When a tick is at the limit.** A tick begins to step an engine that has reached the limit
exactly if, after the latest tick was armed, a snapshot that has reached the limit was the last to
be broadcast. If steps count by one, only then does a tick bring the count above the limit. -/
theorem tick_at_limit_iff (S : Stepper ε) (cancels : Bool)
    (validator : Option (Record → List FieldError)) (actions : List (Action ε)) (id g max : Nat)
    (e : ε) :
    let s := ({ cancels, validator } : Session ε).run S actions
    (s.begin S).log = .stepping ⟨id, .tick g⟩ e :: s.log → s.limit = some max →
      (max ≤ (S.snapshot e).stepCount ↔ ∃ b, s.sinceArmed = some b ∧ max ≤ b.stepCount) ∧
      (S.CountsByOne → max < (S.snapshot (S.step e)).stepCount →
        ∃ b, s.sinceArmed = some b ∧ max ≤ b.stepCount) := by
  intro s begun limit
  have tracked : Tracked S s := keeps_run Move.tracked (tracked_fresh cancels validator) actions
  have count := tracked.engine e (begin_stepping begun).2.1
  have reached : max ≤ (S.snapshot e).stepCount ↔
      ∃ b, s.sinceArmed = some b ∧ max ≤ b.stepCount := by
    rw [count]
    constructor
    -- without a broadcast since then, playback started or went on below the limit
    · intro le
      cases since : s.sinceArmed with
      | none => exact absurd le (Nat.not_le.mpr (tracked.below max since limit))
      | some b => exact ⟨b, rfl, tracked.latest b since ▸ le⟩
    · rintro ⟨b, since, le⟩
      exact tracked.latest b since ▸ le
  refine ⟨reached, fun counts above => reached.mp ?_⟩
  have := counts e
  omega

/-- A caller steps the engine while a tick is armed, and then the tick is started. -/
def stepWhileArmed : List (Action Engine) :=
  [.enter (.init (Engine.create default .empty .single .empty) none), .begin, .play 100 (some 1),
    .enter .step, .begin, .complete, .fire 1]

/-- The snapshot of the caller's step is broadcast after the tick was armed. -/
theorem sinceArmed_stepWhileArmed :
    ∃ b, (({} : Session Engine).run Engine.stepper stepWhileArmed).sinceArmed = some b ∧
      1 ≤ b.stepCount :=
  (tick_at_limit_iff Engine.stepper true none stepWhileArmed 2 1 1 _ rfl rfl).2
    Engine.stepper_countsByOne (Nat.lt_succ_self 1)

/-- The tick steps although the limit of one step is reached. -/
theorem tick_above_limit_of_stepWhileArmed :
    ∃ e, let s := ({} : Session Engine).run Engine.stepper stepWhileArmed
      s.isCurrent 1 = true ∧ s.limit = some 1 ∧
      (s.begin Engine.stepper).log = .stepping ⟨2, .tick 1⟩ e :: s.log ∧
      1 ≤ e.snapshot.stepCount ∧ 1 < e.step.snapshot.stepCount := by
  refine ⟨_, rfl, rfl, rfl, ?_, ?_⟩
  · exact Nat.le_refl 1
  · exact Nat.lt_succ_self 1

end Session

end Cadence
