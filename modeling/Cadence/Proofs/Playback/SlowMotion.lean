import Cadence.Proofs.Engine.Iterations
import Cadence.Proofs.Engine.Run
import Cadence.Proofs.Playback.Calm
import Cadence.Proofs.Playback.Limit
import Cadence.Proofs.Playback.Ticks

/-!
# Playback in slow motion

Playback with a limit is a loop of its own: a tick steps the engine, and then it stops or arms the
next tick. Runs of iterations are another loop, which stops at a failure. With nobody else around
the two do the same.

* `Session.tick`: the scheduler starts the pending tick, and its job is carried out;
* `Session.AtRest`, `Session.Idle`, `Session.Cruising`: sessions whose engine nobody uses, those
  that do not play, and those that do, with nothing under way but the pending tick;
* `Session.Cruising.goesOn`, `Session.Cruising.stops`: the two things that a tick does to it;
* `Session.Cruising.ticks`: ticks in a row, against iterations in a row;
* **`Session.ticks_eq_runIterations`**: limited playback after any run that leaves a session idle.
-/

namespace Cadence

variable {ε : Type}

namespace Session

/-- The scheduler starts the pending tick, if there is one, and its job is carried out. -/
def tick (S : Stepper ε) (s : Session ε) : Session ε :=
  match s.pending with
  | none => s
  | some handle => s.run S [.fire handle, .begin, .complete]

/-- Nobody uses the engine of a session. No validator checks its input, and listeners are calm. -/
structure AtRest (e : ε) (s : Session ε) : Prop where
  queue : s.queue = []
  free : s.stepping = false
  engine : s.engine = some e
  valid : s.validator = none
  calm : s.Calm

/-- A session at rest does not play. -/
structure Idle (e : ε) (s : Session ε) : Prop extends AtRest e s where
  playing : s.playing = false

/-- A session at rest plays up to a limit. -/
structure Steady (max : Nat) (e : ε) (s : Session ε) : Prop extends AtRest e s where
  playing : s.playing = true
  limit : s.limit = some max

/-- Nothing is under way but the pending tick. -/
structure Cruising (max : Nat) (e : ε) (s : Session ε) : Prop extends Steady max e s where
  inOrder : InOrder s

variable {S : Stepper ε} {s : Session ε} {e : ε} {max : Nat}

theorem Cruising.exists_armed (h : Cruising max e s) :
    s.pending = some s.generation ∧
      ∃ t, s.armed.find? (·.handle = s.generation) = some t ∧ t.generation = s.generation := by
  refine ⟨by rw [h.inOrder.pending, if_pos h.playing], ?_⟩
  have live := h.inOrder.current h.playing
  rw [Session.live, fired, h.queue, List.filterMap_nil, List.append_nil] at live
  obtain ⟨t, mem, latest⟩ := List.mem_map.mp live
  have isSome : (s.armed.find? (·.handle = s.generation)).isSome = true :=
    List.find?_isSome.mpr ⟨t, mem, by simp [h.inOrder.handles t mem, latest]⟩
  obtain ⟨t', found⟩ := Option.isSome_iff_exists.mp isSome
  have handle : t'.handle = s.generation := by simpa using List.find?_some found
  refine ⟨t', found, ?_⟩
  rw [← h.inOrder.handles t' (List.mem_of_find?_eq_some found), handle]

theorem Cruising.exists_tick_eq (S : Stepper ε) (h : Cruising max e s) :
    ∃ s₁ job, Steady max (S.step e) s₁ ∧ s₁.broadcasts = s.broadcasts ∧
      s.tick S = (((s₁.commit s₁.generation (S.snapshot (S.step e))).announce
        (S.snapshot (S.step e))).notify (S.snapshot (S.step e))).note
          (.finished job (some (S.snapshot (S.step e)))) := by
  obtain ⟨pending, t, found, latest⟩ := h.exists_armed
  have ticked : s.tick S = ((s.fire s.generation).begin S).complete S := by
    rw [tick, pending]
    rfl
  -- nobody uses the engine, so the tick's job is at the head of the queue at once
  have fired : s.fire s.generation = { s with
      armed := s.armed.filter (·.handle ≠ s.generation)
      queue := [⟨s.nextJob, .tick s.generation⟩]
      nextJob := s.nextJob + 1 } := by
    simp [fire_eq, found, latest, isCurrent, h.playing, enqueue, h.queue]
  have begun : (s.fire s.generation).begin S = ({ s with
      armed := s.armed.filter (·.handle ≠ s.generation)
      queue := [⟨s.nextJob, .tick s.generation⟩]
      nextJob := s.nextJob + 1
      stepping := true
      log := .stepping ⟨s.nextJob, .tick s.generation⟩ e :: s.log } : Session ε) := by
    rw [fired]
    simp [begin, takeUp, h.free, beginStep, h.engine, objections, h.valid, note, Turn.through]
  rw [ticked, begun]
  simp only [complete, takeLeave, h.engine, if_true]
  rw [through_quit, conclude_eq]
  exact ⟨{ s with
      armed := s.armed.filter (·.handle ≠ s.generation)
      queue := []
      nextJob := s.nextJob + 1
      stepping := false
      engine := some (S.step e)
      log := .stepping ⟨s.nextJob, .tick s.generation⟩ e :: s.log }, s.nextJob,
    ⟨⟨rfl, rfl, rfl, h.valid, h.calm⟩, h.playing, h.limit⟩, rfl, rfl⟩

theorem commit_generation (playing : s.playing = true) (limit : s.limit = some max)
    (snapshot : Snapshot) :
    s.commit s.generation snapshot =
      if snapshot.error ≠ none ∨ max ≤ snapshot.stepCount then
        { s with playing := false, pending := none }
      else s.arm := by
  rw [commit, if_pos (isCurrent_iff.mpr ⟨playing, rfl⟩), limit]
  refine if_congr ?_ rfl rfl
  simp [Snapshot.isError, atLimit, Option.isSome_iff_ne_none]

/-- After an error or at the limit, a tick is the last one. -/
theorem Cruising.stops (h : Cruising max e s)
    (last : (S.snapshot (S.step e)).error ≠ none ∨ max ≤ (S.snapshot (S.step e)).stepCount) :
    (s.tick S).engine = some (S.step e) ∧
      (s.tick S).broadcasts = s.broadcasts ++ [S.snapshot (S.step e)] ∧
      (s.tick S).playing = false ∧ (s.tick S).pending = none := by
  obtain ⟨s₁, job, steady, same, ticked⟩ := h.exists_tick_eq S
  rw [ticked, commit_generation steady.playing steady.limit, if_pos last]
  have calm : Calm { s₁ with playing := false, pending := none } := steady.calm
  obtain ⟨us, names, next, log, told, -, heard⟩ :=
    exists_tell_eq calm (S.snapshot (S.step e)) job (some (S.snapshot (S.step e)))
  rw [told]
  exact ⟨steady.engine, heard.trans (congrArg (· ++ _) same), rfl, rfl⟩

theorem Cruising.goesOn (h : Cruising max e s) (done : (S.snapshot (S.step e)).error = none)
    (below : (S.snapshot (S.step e)).stepCount < max) :
    Cruising max (S.step e) (s.tick S) ∧
      (s.tick S).broadcasts = s.broadcasts ++ [S.snapshot (S.step e)] := by
  have inOrder : InOrder (s.tick S) := by
    unfold tick
    split
    · exact h.inOrder
    · exact stable_inOrder.run S h.inOrder _
  obtain ⟨s₁, job, steady, same, ticked⟩ := h.exists_tick_eq S
  have more : ¬ ((S.snapshot (S.step e)).error ≠ none ∨ max ≤ (S.snapshot (S.step e)).stepCount) :=
    not_or.mpr ⟨not_not.mpr done, Nat.not_le.mpr below⟩
  rw [commit_generation steady.playing steady.limit, if_neg more] at ticked
  have calm : Calm s₁.arm := steady.calm
  obtain ⟨us, names, next, log, told, calm', heard⟩ :=
    exists_tell_eq calm (S.snapshot (S.step e)) job (some (S.snapshot (S.step e)))
  rw [ticked, told] at inOrder ⊢
  refine ⟨⟨⟨?_, steady.playing, steady.limit⟩, inOrder⟩, heard.trans (congrArg (· ++ _) same)⟩
  exact ⟨steady.queue, steady.free, steady.engine, steady.valid, calm'⟩

theorem iterate_tick_of_stopped (S : Stepper ε) (stopped : s.pending = none) (k : Nat) :
    (tick S)^[k] s = s := by
  refine Function.iterate_fixed ?_ k
  rw [tick, stopped]

/-- Ticks in a row do what iterations in a row do. -/
theorem Cruising.ticks (sound : S.Sound) (h : Cruising max e s)
    (below : (S.snapshot e).stepCount < max) (k : Nat) :
    let n := min k (max - (S.snapshot e).stepCount)
    let s' := (tick S)^[k] s
    s'.engine = some (S.runIterations n e).2 ∧
    (∃ shown, s'.broadcasts = s.broadcasts ++ shown ∧ S.Surfaces n e shown) ∧
    (s'.playing = true ↔ S.Unfailing n e ∧ (S.snapshot e).stepCount + k < max) := by
  -- on the ticks; the session cruises up to the one that is the last
  induction k generalizing e s with
  | zero =>
    rw [Nat.zero_min]
    refine ⟨h.engine, ⟨[], (List.append_nil _).symm, Stepper.surfaces_zero S e⟩, ?_⟩
    exact iff_of_true h.playing ⟨Stepper.unfailing_zero S e, below⟩
  | succ k ih =>
    have steps : min (k + 1) (max - (S.snapshot e).stepCount) =
        min k (max - ((S.snapshot e).stepCount + 1)) + 1 := by
      omega
    rw [steps, Function.iterate_succ_apply]
    dsimp only
    by_cases done : (S.snapshot (S.step e)).error = none
    · obtain ⟨count, -⟩ := sound e done
      obtain ⟨outputs, -, ran⟩ := Stepper.runIterations_of_sound sound done
      rw [ran]
      by_cases last : max ≤ (S.snapshot (S.step e)).stepCount
      -- the limit is reached, and no iterations are left either
      · obtain ⟨engine, shown, idle, stopped⟩ := h.stops (.inr last)
        have left : min k (max - ((S.snapshot e).stepCount + 1)) = 0 := by omega
        rw [iterate_tick_of_stopped S stopped, left, idle]
        refine ⟨engine, ⟨_, shown, (Stepper.surfaces_zero S _).cons sound done⟩, ?_⟩
        refine iff_of_false Bool.false_ne_true ?_
        rintro ⟨-, lt⟩
        omega
      · obtain ⟨cruising, shown⟩ := h.goesOn done (Nat.lt_of_not_le last)
        obtain ⟨engine, ⟨rest, shown', surfaces⟩, playing⟩ := ih cruising (Nat.lt_of_not_le last)
        rw [count] at engine surfaces playing
        refine ⟨engine, ⟨_ :: rest, ?_, surfaces.cons sound done⟩, ?_⟩
        · rw [shown', shown, List.append_assoc, List.singleton_append]
        · rw [playing, Stepper.unfailing_succ_iff, Nat.add_assoc, Nat.add_comm 1 k]
          simp [done]
    -- a failure ends both loops
    · obtain ⟨engine, shown, idle, stopped⟩ := h.stops (.inl done)
      rw [iterate_tick_of_stopped S stopped, Stepper.runIterations_of_error done, idle]
      refine ⟨engine, ⟨_, shown, Stepper.surfaces_of_error done _⟩, ?_⟩
      refine iff_of_false Bool.false_ne_true ?_
      rintro ⟨all, -⟩
      exact done (Stepper.unfailing_succ_iff.mp all).1

theorem Idle.cruising (h : Idle e s) (inOrder : InOrder s) (below : s.last.stepCount < max)
    (interval : Nat) :
    Cruising max e (s.playLimited interval (some max)) ∧
      (s.playLimited interval (some max)).broadcasts = s.broadcasts := by
  have ordered := inOrder.playLimited interval (some max)
  have started : s.playLimited interval (some max) =
      { s with playing := true, interval, limit := some max }.arm := by
    rw [Session.playLimited, if_neg]
    simp [h.playing, atLimit, below]
  rw [started] at ordered ⊢
  refine ⟨⟨⟨?_, rfl, rfl⟩, ordered⟩, rfl⟩
  exact ⟨h.queue, h.free, h.engine, h.valid, h.calm⟩

/-- **Playback is a run of iterations in slow motion.** Take a session that was left idle with an
engine, start to play it up to a limit above the step count, and carry out `k` ticks and nothing
else. Then the engine is what `k` iterations make of it, or fewer up to the limit; the snapshots
that were broadcast are those without an error for the entries of the history, in order, and the
one with the error if a step failed; and the session plays on exactly if no step failed and the
limit is not reached. -/
theorem ticks_eq_runIterations (cancels : Bool)
    (validator : Option (Record → List FieldError)) (actions : List (Action Engine)) (e : Engine)
    (interval max k : Nat) :
    let S := Engine.stepper
    let s := ({ cancels, validator } : Session Engine).run S actions
    let s' := (tick S)^[k] (s.playLimited interval (some max))
    let n := min k (max - e.stepCount)
    s.Idle e → e.stepCount < max →
      s'.engine = some (S.runIterations n e).2 ∧
      (∃ shown, s'.broadcasts = s.broadcasts ++ shown ∧ S.Surfaces n e shown) ∧
      (s'.playing = true ↔ S.Unfailing n e ∧ e.stepCount + k < max) := by
  intro S s s' n idle below
  have inOrder : InOrder s := stable_inOrder.run S (inOrder_fresh cancels validator) actions
  have tracked : Tracked S s := keeps_run Move.tracked (tracked_fresh cancels validator) actions
  have count : s.last.stepCount < max := by
    rw [← tracked.engine e idle.engine]
    exact below
  obtain ⟨cruising, silent⟩ := idle.cruising inOrder count interval
  obtain ⟨engine, shown, playing⟩ := cruising.ticks Engine.stepper_sound below k
  rw [silent] at shown
  exact ⟨engine, shown, playing⟩

/-- An engine whose second step panics. -/
def shortLived : Engine :=
  .create Engine.onceOnly ⟨[(stepField, {})], by decide⟩ .single .empty

/-- The engine is bound to a session with a listener. -/
def bindShortLived : List (Action Engine) :=
  [.subscribe "seen" Listener.plain, .enter (.init shortLived none), .begin]

/-- The third tick finds nothing to do any more. -/
theorem ticks_eq_runIterations_of_bindShortLived :
    let S := Engine.stepper
    let s := ({} : Session Engine).run S bindShortLived
    let s' := (tick S)^[3] (s.playLimited 10 (some 5))
    s.Idle shortLived ∧ shortLived.stepCount < 5 ∧
      s'.engine = some (S.runIterations 3 shortLived).2 ∧ s'.playing = false ∧
      ∃ shown, s'.broadcasts = s.broadcasts ++ shown ∧ S.Surfaces 3 shortLived shown := by
  intro S s s'
  have idle : s.Idle shortLived := by
    refine ⟨⟨rfl, rfl, rfl, rfl, fun u mem => ?_⟩, rfl⟩
    rw [List.mem_singleton.mp mem]
    exact fun _ _ => nofun
  have below : shortLived.stepCount < 5 := by decide
  obtain ⟨engine, shown, playing⟩ :=
    ticks_eq_runIterations true none bindShortLived shortLived 10 5 3 idle below
  refine ⟨idle, below, engine, ?_, shown⟩
  rw [← Bool.not_eq_true, playing]
  rintro ⟨all, -⟩
  exact nomatch all 1 (by decide)

end Session

end Cadence
