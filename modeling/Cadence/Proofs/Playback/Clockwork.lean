import Cadence.Proofs.Playback.Move

/-!
# The clockwork of a session

Much of a session has no part in which ticks may act and which do: snapshots, listeners, the engine
itself. What is left is turned by few things only, and an invariant of ticks has to be looked at for
these alone.

* `Session.Clockwork`, `Session.clockwork`: the part of a session that ticks depend on;
* `Session.Stable`: what depends on the clockwork alone, and is kept by all that turns it;
* **`Session.Stable.move`**, **`Session.Stable.run`**: it is kept by every move and by every run.
-/

namespace Cadence

variable {ε : Type}

/-- The generation of the tick that a job belongs to. -/
def Job.tick? (j : Job ε) : Option Nat :=
  match j.kind with
  | .tick generation => some generation
  | .order _ => none

/-- A tick was armed or cancelled. -/
def SessionEvent.isTick : SessionEvent ε → Bool
  | .armed .. | .cancelled _ => true
  | _ => false

namespace Session

/-- All of a session that the fate of ticks depends on. -/
structure Clockwork (ε : Type) where
  playing : Bool
  pending : Option Nat
  generation : Nat
  armed : List Tick
  nextHandle : Nat
  cancels : Bool
  queue : List (Job ε)
  ticks : List (SessionEvent ε)

/-- The clockwork of a session. -/
def clockwork (s : Session ε) : Clockwork ε :=
  ⟨s.playing, s.pending, s.generation, s.armed, s.nextHandle, s.cancels, s.queue,
    s.log.filter SessionEvent.isTick⟩

/-- What depends on the clockwork alone and is kept by all that turns it. -/
structure Stable (P : Session ε → Prop) : Prop where
  still : ∀ {s s'}, P s → s'.clockwork = s.clockwork → P s'
  pause : ∀ {s}, P s → P s.pause
  play : ∀ {s} interval limit, P s → P (s.playLimited interval limit)
  order : ∀ {s} order, P s → P (s.enqueue (.order order))
  start : ∀ {s tick}, tick ∈ s.armed → P s → P (s.start tick)
  dequeue : ∀ {s job rest}, s.queue = job :: rest → job.tick? = none → P s →
    P { s with queue := rest }
  commit : ∀ {s job rest g}, s.queue = job :: rest → job.tick? = some g → ∀ snapshot, P s →
    P (({ s with queue := rest } : Session ε).commit g snapshot)

variable {S : Stepper ε}

theorem queue_shutEngine (S : Stepper ε) (s : Session ε) : (s.shutEngine S).queue = s.queue := by
  unfold shutEngine
  split <;> rfl

namespace Stable

variable {P : Session ε → Prop} {s s' : Session ε} {job : Job ε} {rest : List (Job ε)}

theorem exists_release (h : Stable P) (hs : P s) (head : s.queue = job :: rest) :
    ∃ s', P s' ∧ s'.queue = job :: rest ∧ s.release = { s' with queue := rest } := by
  obtain ⟨log, granted, eq⟩ := s.exists_release_eq
  refine ⟨{ s with stepping := false, log }, h.still hs ?_, head, ?_⟩
  · rcases granted with rfl | ⟨next, rfl⟩ <;> rfl
  · rw [eq, head]
    rfl

theorem release (h : Stable P) (hs : P s) (head : s.queue = job :: rest) {order : Order ε}
    (kind : job.kind = .order order) : P s.release := by
  obtain ⟨s', hs', head', eq⟩ := h.exists_release hs head
  rw [eq]
  exact h.dequeue head' (by simp [Job.tick?, kind]) hs'

theorem announce (h : Stable P) (hs : P s) (snapshot : Snapshot) : P (s.announce snapshot) :=
  h.still hs rfl

theorem leave (h : Stable P) (hs : P s) (head : s.queue = job :: rest) (snapshot : Snapshot) :
    P (s.leave job snapshot) := by
  refine h.announce ?_ snapshot
  unfold Session.settle
  split
  · next g kind =>
    obtain ⟨s', hs', head', eq⟩ := h.exists_release hs head
    rw [eq]
    exact h.commit head' (by simp [Job.tick?, kind]) snapshot hs'
  · next order kind => exact h.release hs head kind

theorem shutEngine (h : Stable P) (S : Stepper ε) (hs : P s) : P (s.shutEngine S) := by
  unfold Session.shutEngine
  split
  · exact hs
  · exact h.still hs rfl

/-- **What is stable is kept by every move.** -/
theorem move (h : Stable P) (m : Move S s s') (hs : P s) : P s' := by
  cases m with
  | paused => exact h.pause hs
  | played interval limit => exact h.play interval limit hs
  | ordered order => exact h.order order hs
  | started armed => exact h.start armed hs
  | paced | subscribed | called | begun | finished => exact h.still hs rfl
  | unsubscribed name =>
    unfold unsubscribe
    split
    · exact hs
    · exact h.still hs rfl
  | unbound head | rejected head => exact h.leave hs head _
  | @completed _ _ e head =>
    exact h.leave (s := { s with engine := some (S.step e) }) (h.still hs rfl) head _
  | ignored head _ kind => exact h.release hs head kind
  | @replaced _ _ input e head _ kind =>
    have left := h.release (s := { s with engine := some (S.setInput e input) }) (h.still hs rfl)
      head kind
    exact h.announce left _
  | @bound _ _ _ _ e head _ kind =>
    have left := h.release (s := { s.shutEngine S with engine := some e })
      (h.still (h.shutEngine S hs) rfl) ((queue_shutEngine S s).trans head) kind
    exact h.announce left _
  | removed head _ kind =>
    have left := h.release (h.shutEngine S hs) ((queue_shutEngine S s).trans head) kind
    exact h.still left rfl

/-- **What is stable is kept by every run.** -/
theorem run (h : Stable P) (S : Stepper ε) (hs : P s) (actions : List (Action ε)) :
    P (s.run S actions) :=
  keeps_run h.move hs actions

end Stable

end Session

end Cadence
