import Cadence.Playback.Stage
import Cadence.Proofs.Playback.Limit
import Cadence.Proofs.Playback.Ticks

/-!
# Changes of the interval

To change the interval of a session that plays is to pause it and to start it again, and a start has
a condition of its own: it leaves a session alone that has reached its limit.

* `Session.setInterval_of_idle`, `Session.setInterval_of_below`, `Session.setInterval_of_reached`:
  the three things that a change comes to;
* `Session.Disarmed`, `Session.Rearmed`: nothing is armed, or a new tick in place of the old one;
* `Stage.perform_setInterval`: what a change asks of the scheduler;
* **`Session.setInterval_spec`**: a change of the interval in any state that can be reached.
-/

namespace Cadence

variable {ε : Type}

namespace Session

variable {S : Stepper ε} {s : Session ε} {old : Nat}

/-- The last snapshot has not reached the limit, if there is one. -/
def BelowLimit (s : Session ε) : Prop := ∀ max, s.limit = some max → s.last.stepCount < max

theorem atLimit_iff : atLimit s.last.stepCount s.limit = true ↔ ¬ s.BelowLimit := by
  unfold atLimit BelowLimit
  cases s.limit <;> simp

/-! ## What a change comes to -/

theorem setInterval_of_idle (idle : s.playing = false) (interval : Nat) :
    s.setInterval interval = { s with interval } := by
  unfold setInterval
  rw [idle]
  rfl

theorem pause_of_pending (pending : s.pending = some old) :
    s.pause = { s with playing := false, pending := none }.cancel old := by
  unfold pause
  rw [pending]

theorem setInterval_of_below (playing : s.playing = true) (pending : s.pending = some old)
    (below : s.BelowLimit) (interval : Nat) :
    s.setInterval interval = { s.pause with playing := true, interval }.arm := by
  have starts : ¬ (s.pause.playing || atLimit s.pause.last.stepCount s.limit) = true := by
    rw [pause_of_pending pending]
    show ¬ (false || atLimit s.last.stepCount s.limit) = true
    rw [Bool.false_or, atLimit_iff, not_not]
    exact below
  unfold setInterval playLimited
  rw [if_pos playing, if_neg starts, pause_of_pending pending]
  rfl

theorem setInterval_of_reached (playing : s.playing = true) (pending : s.pending = some old)
    (reached : ¬ s.BelowLimit) (interval : Nat) : s.setInterval interval = s.pause := by
  have stays : (s.pause.playing || atLimit s.pause.last.stepCount s.limit) = true := by
    rw [pause_of_pending pending]
    show (false || atLimit s.last.stepCount s.limit) = true
    rw [Bool.false_or, atLimit_iff]
    exact reached
  unfold setInterval playLimited
  rw [if_pos playing, if_pos stays]

/-! ## What is armed -/

/-- Playback has stopped and nothing is pending. A scheduler that cancels has no tick armed. -/
structure Disarmed (s : Session ε) : Prop where
  playing : s.playing = false
  pending : s.pending = none
  armed : s.cancels = true → s.armed = []

/-- Playback goes on up to the same limit, with a new tick in place of the old one. It is the
pending tick and the one that may act, and a scheduler that cancels has no other armed. -/
structure Rearmed (s : Session ε) (old : Nat) (new : Tick) (t : Session ε) : Prop where
  playing : t.playing = true
  limit : t.limit = s.limit
  log : t.log = .armed new t.interval :: .cancelled old :: s.log
  pending : t.pending = some new.handle
  current : t.isCurrent new.generation = true
  armed : t.cancels = true → t.armed = [new]

theorem InOrder.pending_of_playing (h : InOrder s) (playing : s.playing = true) :
    s.pending = some s.generation := by
  rw [h.pending, if_pos playing]

theorem InOrder.disarmed (h : InOrder s) (idle : s.playing = false) : Disarmed s where
  playing := idle
  pending := by simp [h.pending, idle]
  armed := h.armed_eq_nil idle

theorem playing_pause (s : Session ε) : s.pause.playing = false := by
  unfold pause
  split <;> rfl

theorem InOrder.rearmed (h : InOrder s) (playing : s.playing = true) (below : s.BelowLimit)
    (interval : Nat) :
    Rearmed s s.generation ⟨s.nextHandle, s.generation + 1⟩ (s.setInterval interval) ∧
      (s.setInterval interval).interval = interval := by
  have pending := h.pending_of_playing playing
  have stopped := h.pause.disarmed s.playing_pause
  have eq := setInterval_of_below playing pending below interval
  rw [pause_of_pending pending] at eq stopped
  rw [eq]
  refine ⟨⟨rfl, rfl, rfl, rfl, ?_, fun cancels => ?_⟩, rfl⟩
  · exact isCurrent_iff.mpr ⟨rfl, rfl⟩
  · exact congrArg (· ++ [_]) (stopped.armed cancels)

end Session

/-! ## What is asked of the scheduler -/

theorem Stage.perform_setInterval {t : Stage ε} {old : Nat} (S : Stepper ε) (now : Nat)
    (playing : t.session.playing = true) (pending : t.session.pending = some old)
    (below : t.session.BelowLimit) (log : t.session.log = []) (interval : Nat) :
    (t.perform S now (.setInterval interval)).2 = [.cancel old, .schedule interval] := by
  have changed : t.session.act S (.setInterval interval) =
      ({ t.session.pause with playing := true, interval } : Session ε).arm :=
    Session.setInterval_of_below playing pending below interval
  have events : (t.session.act S (.setInterval interval)).log =
      [.armed ⟨t.session.nextHandle, t.session.generation + 1⟩ interval, .cancelled old] := by
    rw [changed, Session.pause_of_pending pending, ← log]
    rfl
  unfold perform collect
  dsimp only
  rw [events]
  rfl

namespace Session

/-- **A change of the interval**, in any state that can be reached.

* A session that is idle takes the interval and stays idle, with nothing armed.
* A session that plays below its limit plays on up to the same limit, with the interval. Its old
  tick is cancelled and will never act again, and exactly one new tick is armed, after the interval:
  on a loop the scheduler is asked for just that.
* A session that plays although it has reached its limit stops. Its tick is cancelled, and nothing
  is armed. -/
theorem setInterval_spec (S : Stepper ε) (cancels : Bool)
    (validator : Option (Record → List FieldError)) (s : Session ε)
    (reached : Moves S { cancels, validator } s) (interval : Nat) :
    let t := s.setInterval interval
    (s.playing = false → t.interval = interval ∧ t.log = s.log ∧ t.Disarmed) ∧
    (s.playing = true → s.BelowLimit → t.interval = interval ∧
      ∃ old new, s.pending = some old ∧ Rearmed s old new t ∧
        (∀ later, (t.run S later).isCurrent s.generation = false) ∧
        ∀ (stage : Stage ε) (now : Nat), stage.session = { s with log := [] } →
          (stage.perform S now (.setInterval interval)).2 = [.cancel old, .schedule interval]) ∧
    (s.playing = true → ¬ s.BelowLimit →
      t.Disarmed ∧ ∃ old, s.pending = some old ∧ t.log = .cancelled old :: s.log) := by
  intro t
  have inOrder : InOrder s :=
    reached.keeps stable_inOrder.move (inOrder_fresh cancels validator)
  refine ⟨fun idle => ?_, fun playing below => ?_, fun playing atLimit => ?_⟩
  · have eq : t = { s with interval } := setInterval_of_idle idle interval
    have stopped := inOrder.disarmed idle
    rw [eq]
    exact ⟨rfl, rfl, stopped.playing, stopped.pending, stopped.armed⟩
  · have pending := inOrder.pending_of_playing playing
    obtain ⟨rearmed, changed⟩ := inOrder.rearmed playing below interval
    refine ⟨changed, s.generation, _, pending, rearmed, fun later => ?_, fun stage now same => ?_⟩
    · have superseded : Superseded s.generation t := by
        have latest := isCurrent_iff.mp rearmed.current
        refine ⟨Nat.le_of_lt (latest.2 ▸ Nat.lt_succ_self _), ?_⟩
        rw [← Bool.not_eq_true, isCurrent_iff]
        rintro ⟨-, eq⟩
        exact Nat.ne_of_lt (Nat.lt_succ_self _) (eq.symm.trans latest.2)
      exact ((stable_superseded s.generation).run S superseded later).2
    · refine stage.perform_setInterval S now ?_ ?_ ?_ ?_ interval
      all_goals rw [same]
      · exact playing
      · exact pending
      · exact below
  · have pending := inOrder.pending_of_playing playing
    have eq : t = s.pause := setInterval_of_reached playing pending atLimit interval
    rw [eq]
    refine ⟨inOrder.pause.disarmed s.playing_pause, s.generation, pending, ?_⟩
    rw [pause_of_pending pending]
    rfl

/-- A tick is started, and the step of the engine that it has begun is not over. -/
def tickUnderWay : List (Action Engine) :=
  [.enter (.init (Engine.create default .empty .single .empty) none), .begin, .play 100 (some 3),
    .fire 1, .begin]

/-- The tick that is under way is superseded: when its step is over, it arms nothing. -/
theorem setInterval_spec_tickUnderWay :
    let s := ({} : Session Engine).run Engine.stepper tickUnderWay
    let t := s.setInterval 20
    s.playing = true ∧ s.BelowLimit ∧ t.interval = 20 ∧ (∃ new, Rearmed s 1 new t) ∧
      (t.run Engine.stepper [.complete]).isCurrent 1 = false := by
  intro s t
  have below : s.BelowLimit := by
    rintro max ⟨⟩
    exact Nat.succ_pos 2
  obtain ⟨-, plays, -⟩ := setInterval_spec Engine.stepper true none s
    (moves_run {} tickUnderWay) 20
  obtain ⟨interval, old, new, pending, rearmed, never, -⟩ := plays rfl below
  cases pending
  exact ⟨rfl, below, interval, ⟨new, rearmed⟩, never [.complete]⟩

/-- A caller's step reaches the limit while a tick is armed. The change of the interval stops
playback, and the interval stays as it was. -/
theorem stopped_by_setInterval :
    let s := ({} : Session Engine).run Engine.stepper (stepWhileArmed.take 6)
    let t := s.setInterval 50
    s.playing = true ∧ s.armed = [⟨1, 1⟩] ∧ t.playing = false ∧ t.armed = [] ∧ t.interval = 100 :=
  ⟨rfl, rfl, rfl, rfl, rfl⟩

end Session

end Cadence
