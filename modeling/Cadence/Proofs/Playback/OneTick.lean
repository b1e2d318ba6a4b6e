import Cadence.Proofs.Playback.Overlap
import Cadence.Proofs.Playback.Ticks

/-!
# One tick at a time

A tick that has decided about playback may have armed the next one, and goes on beside it. While
callers keep away, one tick at most has not decided yet, wherever it is on its way: armed, about to
join the queue, in it, or behind its step.

* `Weave.ticks`: the ticks that have not decided, wherever they are;
* `Weave.Sole`: there is one of them at most, and then it is current;
* `Weave.Sole.armed_eq`, `Weave.Sole.head_eq`, `Weave.Sole.next_eq`: where it is, nothing else is;
* `Weave.undecided`, `Weave.Sole.undecided_pass`: the snapshots with which ticks are to decide.
-/

namespace Cadence

variable {ε : Type}

theorem eq_nil_of_append_cons {α : Type} {front back : List α} {a b : α}
    (one : front ++ a :: back = [b]) : front = [] ∧ back = [] := by
  cases front with
  | nil => exact ⟨rfl, (List.cons.inj one).2⟩
  | cons c front => simp at one

namespace Session.Section

/-- The generation of the tick that has a critical section ahead before it has decided. -/
def tick? : Section ε → Option Nat
  | .enqueue (.tick generation) | .commit generation _ => some generation
  | _ => none

/-- The snapshot with which a tick is going to decide about playback. -/
def undecided? : Section ε → Option Snapshot
  | .commit _ snapshot => some snapshot
  | _ => none

theorem undecided_of_tick {x : Section ε} (none : x.tick? = none) : x.undecided? = .none := by
  cases x with
  | commit => cases none
  | enqueue | publish | dismiss | finish => rfl

end Session.Section

namespace Weave

open Session

variable {S : Stepper ε} {w : Weave ε} {x : Section ε} {rest ahead : List (Section ε)} {i : Nat}

/-- The generations of the ticks that have not decided about playback yet. -/
def ticks (w : Weave ε) : List Nat :=
  w.session.armed.map (·.generation) ++
    (w.session.queue.filterMap Job.tick? ++ w.threads.flatMap (·.filterMap Section.tick?))

/-- The snapshots with which ticks are going to decide about playback. -/
def undecided (w : Weave ε) : List Snapshot :=
  w.threads.flatMap (·.filterMap Section.undecided?)

/-- There is one tick at most that has not decided, and then the session plays and the tick is
current. -/
def Sole (w : Weave ε) : Prop :=
  w.ticks = [] ∨ w.session.playing = true ∧ w.ticks = [w.session.generation]

/-! ## What threads have ahead -/

theorem ticks_concat (s : Session ε) (threads : List (List (Section ε))) :
    (⟨s, threads ++ [ahead]⟩ : Weave ε).ticks =
      (⟨s, threads⟩ : Weave ε).ticks ++ ahead.filterMap Section.tick? := by
  simp [ticks]

theorem undecided_concat (s s' : Session ε) (threads : List (List (Section ε))) :
    (⟨s, threads ++ [ahead]⟩ : Weave ε).undecided =
      (⟨s', threads⟩ : Weave ε).undecided ++ ahead.filterMap Section.undecided? := by
  simp [undecided]

theorem undecided_start (S : Stepper ε) (w : Weave ε) (a : Session.Action ε) :
    (w.act S (.start a)).undecided =
      w.undecided ++ (w.session.turn S a).ahead.filterMap Section.undecided? :=
  undecided_concat _ _ _

theorem undecided_of_ticks {threads : List (List (Section ε))}
    (none : threads.flatMap (·.filterMap Section.tick?) = []) :
    threads.flatMap (·.filterMap Section.undecided?) = [] := by
  rw [List.flatMap_eq_nil_iff] at none ⊢
  intro t mem
  have none := none t mem
  rw [List.filterMap_eq_nil_iff] at none ⊢
  exact fun x mem => Section.undecided_of_tick (none x mem)

/-! ## The only tick -/

theorem sole_of_one {s : Session ε} {threads : List (List (Section ε))} {g : Nat}
    (current : s.isCurrent g = true) (one : (⟨s, threads⟩ : Weave ε).ticks = [g]) :
    (⟨s, threads⟩ : Weave ε).Sole := by
  obtain ⟨playing, generation⟩ := isCurrent_iff.mp current
  refine .inr ⟨playing, one.trans ?_⟩
  rw [← generation]

theorem Sole.ticks_of_idle (h : w.Sole) (idle : w.session.playing = false) : w.ticks = [] := by
  rcases h with none | ⟨playing, -⟩
  · exact none
  · rw [idle] at playing
    cases playing

theorem Sole.undecided_of_idle (h : w.Sole) (idle : w.session.playing = false) :
    w.undecided = [] :=
  undecided_of_ticks
    (List.append_eq_nil_iff.mp (List.append_eq_nil_iff.mp (h.ticks_of_idle idle)).2).2

/-- A tick that has not decided is current, and the only one. -/
theorem Sole.only (h : w.Sole) {g : Nat} {front back : List Nat}
    (split : w.ticks = front ++ g :: back) :
    w.session.isCurrent g = true ∧ front = [] ∧ back = [] := by
  rcases h with none | ⟨playing, one⟩
  · rw [none] at split
    simp at split
  · have nil := eq_nil_of_append_cons (split.symm.trans one)
    rw [nil.1, nil.2, one] at split
    exact ⟨isCurrent_iff.mpr ⟨playing, (List.cons.inj split).1⟩, nil⟩

theorem Sole.armed_eq (h : w.Sole) {tick : Tick} (mem : tick ∈ w.session.armed) :
    w.session.armed = [tick] ∧ w.session.isCurrent tick.generation = true ∧
      w.session.queue.filterMap Job.tick? = [] ∧
      w.threads.flatMap (·.filterMap Section.tick?) = [] := by
  obtain ⟨front, back, armed⟩ := List.append_of_mem mem
  have split : w.ticks = front.map (·.generation) ++ tick.generation ::
      (back.map (·.generation) ++ (w.session.queue.filterMap Job.tick? ++
        w.threads.flatMap (·.filterMap Section.tick?))) := by
    simp [ticks, armed]
  obtain ⟨current, before, after⟩ := h.only split
  obtain ⟨behind, others⟩ := List.append_eq_nil_iff.mp after
  rw [armed, List.map_eq_nil_iff.mp before, List.map_eq_nil_iff.mp behind]
  exact ⟨rfl, current, List.append_eq_nil_iff.mp others⟩

theorem Sole.head_eq (h : w.Sole) {job : Job ε} {others : List (Job ε)} {g : Nat}
    (head : w.session.queue = job :: others) (kind : job.kind = .tick g) :
    w.session.isCurrent g = true ∧ w.session.armed = [] ∧ others.filterMap Job.tick? = [] ∧
      w.threads.flatMap (·.filterMap Section.tick?) = [] := by
  have split : w.ticks = w.session.armed.map (·.generation) ++ g ::
      (others.filterMap Job.tick? ++ w.threads.flatMap (·.filterMap Section.tick?)) := by
    simp [ticks, head, Job.tick?, kind]
  obtain ⟨current, unarmed, behind⟩ := h.only split
  exact ⟨current, List.map_eq_nil_iff.mp unarmed, List.append_eq_nil_iff.mp behind⟩

theorem Sole.next_eq (h : w.Sole) {g : Nat} (next : w.threads[i]? = some (x :: rest))
    (tick : x.tick? = some g) :
    w.session.isCurrent g = true ∧ w.session.armed = [] ∧
      w.session.queue.filterMap Job.tick? = [] ∧
      (w.threads.set i rest).flatMap (·.filterMap Section.tick?) = [] := by
  obtain ⟨back, before, after⟩ := exists_flatMap_eq Section.tick? next
  have split : w.ticks = (w.session.armed.map (·.generation) ++
      (w.session.queue.filterMap Job.tick? ++
        (w.threads.take i).flatMap (·.filterMap Section.tick?))) ++ g :: back := by
    simp [ticks, before, tick]
  obtain ⟨current, ahead, behind⟩ := h.only split
  obtain ⟨unarmed, ahead⟩ := List.append_eq_nil_iff.mp ahead
  obtain ⟨unqueued, none⟩ := List.append_eq_nil_iff.mp ahead
  rw [after, none, behind]
  exact ⟨current, List.map_eq_nil_iff.mp unarmed, unqueued, rfl⟩

/-! ## Deciding -/

theorem pass_or_done (w : Weave ε) (i : Nat) :
    (∃ x rest, w.threads[i]? = some (x :: rest)) ∨ w.pass i = w ∧ w.commits? i = none := by
  unfold pass commits?
  cases w.threads[i]? with
  | none => exact .inr ⟨rfl, rfl⟩
  | some t =>
    cases t with
    | nil => exact .inr ⟨rfl, rfl⟩
    | cons x rest => exact .inl ⟨x, rest, rfl⟩

theorem Sole.commits?_eq (h : w.Sole) (next : w.threads[i]? = some (x :: rest)) :
    w.commits? i = x.undecided? := by
  unfold commits?
  rw [next]
  cases x with
  | commit g snapshot => exact if_pos (h.next_eq next rfl).1
  | enqueue | publish | dismiss | finish => rfl

theorem Sole.undecided_eq (h : w.Sole) {g : Nat} {snapshot : Snapshot}
    (next : w.threads[i]? = some (.commit g snapshot :: rest)) :
    w.undecided = [snapshot] ∧
      (w.threads.set i rest).flatMap (·.filterMap Section.undecided?) = [] := by
  obtain ⟨-, -, -, threads⟩ := h.next_eq next rfl
  have none := undecided_of_ticks threads
  obtain ⟨back, before, after⟩ := exists_flatMap_eq Section.undecided? next
  refine ⟨?_, none⟩
  rw [after] at none
  obtain ⟨front, rfl⟩ := List.append_eq_nil_iff.mp none
  rw [front] at before
  exact before

theorem Sole.undecided_pass (h : w.Sole) (i : Nat) :
    w.undecided = (w.commits? i).toList ++ (w.pass i).undecided := by
  rcases w.pass_or_done i with ⟨x, rest, next⟩ | ⟨same, none⟩
  · rw [h.commits?_eq next, pass_of_some next]
    cases x with
    | commit g snapshot =>
      obtain ⟨before, after⟩ := h.undecided_eq next
      rw [before, show undecided ⟨_, _⟩ = [] from after]
      rfl
    | enqueue | publish | dismiss | finish =>
      exact (flatMap_set_of_none (f := Section.undecided?) next rfl).symm
  · rw [same, none]
    rfl

end Weave

end Cadence
