import Cadence.Proofs.Schedule.Timers

/-!
# Tasks apart

What happens to one task of a timer service depends on nothing that belongs to the other tasks.

* `having`: the members of a list that belong to one task;
* `TimerQueue.only`, `TimerService.only`: a queue and a service with one task;
* `TimerService.only_act_own`: an action does the same to the task if there are no other tasks;
* `TimerService.only_act_other`: an action does nothing to the task if it is about another one;
* **`TimerService.only_act`**, `TimerService.only_run`: what becomes of one task.
-/

namespace Cadence

/-! ## What belongs to one task -/

/-- The members of a list that belong to one task. -/
def having {α : Type} (f : α → Nat) (id : Nat) (l : List α) : List α := l.filter (f · = id)

section

variable {α : Type} {f : α → Nat} {g : α → α} {id j : Nat} {l : List α}

theorem having_having : having f id (having f id l) = having f id l := by
  unfold having
  rw [List.filter_filter]
  simp

theorem having_having_other (other : j ≠ id) : having f id (having f j l) = [] := by
  refine List.filter_eq_nil_iff.mpr fun x mem => ?_
  have own : f x = j := by simpa using (List.mem_filter.mp mem).2
  rw [decide_eq_true_eq, own]
  exact other

theorem having_append {l' : List α} : having f id (l ++ l') = having f id l ++ having f id l' :=
  List.filter_append _ _

theorem having_append_own {x : α} (own : f x = id) :
    having f id (l ++ [x]) = having f id l ++ [x] := by
  have one : having f id [x] = [x] := List.filter_cons_of_pos (by simpa using own)
  rw [having_append, one]

theorem having_append_other {x : α} (other : f x ≠ id) :
    having f id (l ++ [x]) = having f id l := by
  have none : having f id [x] = [] := List.filter_cons_of_neg (by simpa using other)
  rw [having_append, none, List.append_nil]

theorem having_drop : having f id (l.filter (f · ≠ j)) = (having f id l).filter (f · ≠ j) := by
  unfold having
  rw [List.filter_filter, List.filter_filter]
  exact List.filter_congr fun x _ => Bool.and_comm _ _

theorem having_drop_other (other : j ≠ id) :
    having f id (l.filter (f · ≠ j)) = having f id l := by
  rw [having_drop]
  refine List.filter_eq_self.mpr fun x mem => ?_
  have own : f x = id := by simpa using (List.mem_filter.mp mem).2
  rw [decide_eq_true_eq, own]
  exact other.symm

theorem having_map (keeps : ∀ x, f (g x) = f x) :
    having f id (l.map g) = (having f id l).map g := by
  unfold having
  rw [List.filter_map]
  refine congrArg _ (List.filter_congr fun x _ => ?_)
  dsimp only [Function.comp_apply]
  rw [keeps]

theorem having_map_other (keeps : ∀ x, f (g x) = f x) (same : ∀ x, f x = id → g x = x) :
    having f id (l.map g) = having f id l := by
  rw [having_map keeps]
  refine (List.map_congr_left fun x mem => ?_).trans (List.map_id _)
  exact same x (by simpa using (List.mem_filter.mp mem).2)

theorem find?_having : (having f id l).find? (f · = id) = l.find? (f · = id) := by
  unfold having
  rw [List.find?_filter]
  refine congrArg (List.find? · l) (funext fun x => ?_)
  simp

end

/-! ## Queues -/

namespace TimerQueue

variable {q : TimerQueue} {id j : Nat}

/-- The queue with the entry and the sleeper of one task. -/
def only (q : TimerQueue) (id : Nat) : TimerQueue :=
  { q with entries := having (·.id) id q.entries, sleepers := having (·.id) id q.sleepers }

theorem only_only : (q.only id).only id = q.only id := by
  unfold only
  rw [having_having, having_having]

theorem only_dropEntry : (q.dropEntry j).only id = (q.only id).dropEntry j := by
  unfold only dropEntry
  rw [having_drop]

theorem only_dropEntry_other (other : j ≠ id) : (q.dropEntry j).only id = q.only id := by
  unfold only dropEntry
  rw [having_drop_other other]

theorem only_dropSleeper : (q.dropSleeper j).only id = (q.only id).dropSleeper j := by
  unfold only dropSleeper
  rw [having_drop]

theorem only_dropSleeper_other (other : j ≠ id) : (q.dropSleeper j).only id = q.only id := by
  unfold only dropSleeper
  rw [having_drop_other other]

theorem only_spawn {delay : Nat} : (q.spawn id delay).only id = (q.only id).spawn id delay := by
  simp [only, spawn, having_append_own]

theorem only_spawn_other {delay : Nat} (other : j ≠ id) :
    (q.spawn j delay).only id = q.only id := by
  simp [only, spawn, having_append_other, other]

theorem only_record : (q.record j).only id = (q.only id).record j := by
  unfold only record
  rw [having_map]
  intro e
  split <;> rfl

theorem only_record_other (other : j ≠ id) : (q.record j).only id = q.only id := by
  unfold only record
  rw [having_map_other]
  · intro e
    split <;> rfl
  · intro e own
    rw [own, if_neg other.symm]

theorem only_doze {due : Nat} : (q.doze j due).only id = (q.only id).doze j due := by
  unfold only doze
  rw [having_map]
  intro x
  split <;> rfl

theorem only_doze_other {due : Nat} (other : j ≠ id) : (q.doze j due).only id = q.only id := by
  unfold only doze
  rw [having_map_other]
  · intro x
    split <;> rfl
  · intro x own
    rw [own, if_neg other.symm]

theorem isRecorded_only : (q.only id).isRecorded id = q.isRecorded id := by
  simp [isRecorded, only, having, List.any_filter]

theorem isPending_only : (q.only id).isPending id = q.isPending id := by
  simp [isPending, only, having, List.any_filter]

theorem only_cancel : (q.cancel id).only id = (q.only id).cancel id := by
  rw [cancel_eq, cancel_eq, isRecorded_only, apply_ite (only · id), only_dropSleeper,
    only_dropEntry]

theorem only_cancel_other (other : j ≠ id) : (q.cancel j).only id = q.only id := by
  rw [cancel_eq, apply_ite (only · id), only_dropSleeper_other other, only_dropEntry_other other,
    ite_self]

theorem only_look (now : Nat) :
    (q.only id).look now id = ((q.look now id).1.only id, (q.look now id).2) := by
  have found : (q.only id).sleepers.find? (·.id = id) = q.sleepers.find? (·.id = id) := find?_having
  unfold look
  rw [found]
  cases q.sleepers.find? (·.id = id) with
  | none => rfl
  | some x =>
    dsimp only
    split
    · unfold wake
      rw [isPending_only, ← only_dropEntry, ← only_dropSleeper]
    · exact congrArg (·, _) only_doze.symm

theorem only_look_other (other : j ≠ id) (now : Nat) :
    (q.look now j).1.only id = q.only id := by
  rcases q.look_cases now j with ⟨-, eq⟩ | ⟨x, -, ⟨-, eq⟩ | ⟨-, eq⟩⟩
  · rw [eq]
  · rw [eq]
    exact only_doze_other other
  · rw [eq]
    exact (only_dropSleeper_other other).trans (only_dropEntry_other other)

end TimerQueue

/-! ## Services -/

namespace TimerService

variable {s s' : TimerService} {id j : Nat} {a : Action}

/-- The service with all that belongs to one task, and with nothing of the other tasks. -/
def only (s : TimerService) (id : Nat) : TimerService where
  queue := s.queue.only id
  now := s.now
  spawning := having (·.id) id s.spawning
  recording := having (·) id s.recording
  running := having (·) id s.running
  known := having (·.id) id s.known
  cancelled := having (·) id s.cancelled
  starts := having (·.1) id s.starts

/-- The task that an action is about. -/
def Action.target : Action → Option Nat
  | .reserve _ | .pass _ => none
  | .spawn id | .record id | .cancel id | .look id | .finish id => some id

theorem only_only : (s.only id).only id = s.only id := by
  unfold only
  simp only [TimerQueue.only_only, having_having]

theorem knownIds_only : (s.only id).knownIds = having (·) id s.knownIds :=
  (List.filter_map (p := fun i : Nat => decide (i = id))).symm

/-- **An action that is about a task** finds all that it reads in what belongs to the task. -/
theorem only_act_own (about : a.target = some id) : (s.only id).act a = (s.act a).only id := by
  cases a with
  | reserve | pass => cases about
  | spawn i =>
    obtain rfl : i = id := Option.some.inj about
    have found : (s.only i).spawning.find? (·.id = i) = s.spawning.find? (·.id = i) := find?_having
    unfold act
    dsimp only
    rw [found]
    split
    · rfl
    · simp only [only, TimerQueue.only_spawn, having_drop, having_append_own]
  | record i =>
    obtain rfl : i = id := Option.some.inj about
    have found : i ∈ (s.only i).recording ↔ i ∈ s.recording := by simp [only, having]
    unfold act
    dsimp only
    by_cases next : i ∈ s.recording
    · rw [if_pos next, if_pos (found.mpr next)]
      simp only [only, TimerQueue.only_record, having_drop]
    · rw [if_neg next, if_neg (mt found.mp next)]
  | cancel i =>
    obtain rfl : i = id := Option.some.inj about
    have found : (s.only i).queue.isRecorded i = s.queue.isRecorded i := TimerQueue.isRecorded_only
    unfold act
    dsimp only
    have known : (s.only i).knownIds.filter (· = i) = having (·) i (s.knownIds.filter (· = i)) := by
      rw [knownIds_only]
      rfl
    rw [found, known]
    simp only [only, TimerQueue.only_cancel, having_append, apply_ite (having (·) i), having_drop]
  | look i =>
    obtain rfl : i = id := Option.some.inj about
    have looked : (s.only i).queue.look (s.only i).now i =
        ((s.queue.look s.now i).1.only i, (s.queue.look s.now i).2) := TimerQueue.only_look s.now
    unfold act
    dsimp only
    rw [looked]
    rcases s.queue.look s.now i with ⟨q, status⟩
    cases status
    · rfl
    · simp [only, having_append_own]
    · rfl
  | finish i =>
    obtain rfl : i = id := Option.some.inj about
    simp only [act, only, having_drop]

/-- **An action that is about another task** changes nothing that belongs to the task. -/
theorem only_act_other (about : a.target = some j) (other : j ≠ id) :
    (s.act a).only id = s.only id := by
  cases a with
  | reserve | pass => cases about
  | spawn i =>
    obtain rfl : i = j := Option.some.inj about
    unfold act
    dsimp only
    split
    · rfl
    · simp only [only, TimerQueue.only_spawn_other other, having_drop_other other,
        having_append_other (f := (·)) other]
  | record i =>
    obtain rfl : i = j := Option.some.inj about
    unfold act
    dsimp only
    split
    · simp only [only, TimerQueue.only_record_other other, having_drop_other other]
    · rfl
  | cancel i =>
    obtain rfl : i = j := Option.some.inj about
    have unmarked : having (·) id (s.knownIds.filter (· = i)) = [] := having_having_other other
    simp only [act, only, TimerQueue.only_cancel_other other, having_append, unmarked,
      List.append_nil, apply_ite (having (·) id), having_drop_other other, ite_self]
  | look i =>
    obtain rfl : i = j := Option.some.inj about
    have looked : (s.queue.look s.now i).1.only id = s.queue.only id :=
      TimerQueue.only_look_other other s.now
    have started : having (·.1) id (s.starts ++ [(i, s.now)]) = having (·.1) id s.starts :=
      having_append_other other
    unfold act
    dsimp only
    split
    · next eq =>
      rw [eq] at looked
      simp only [only, looked, having_append_other (f := (·)) other, started]
    · next eq =>
      rw [eq] at looked
      simp only [only, looked]
  | finish i =>
    obtain rfl : i = j := Option.some.inj about
    simp only [act, only, having_drop_other other]

/-- **What becomes of a task** depends on what belongs to it alone. -/
theorem only_act (s : TimerService) (id : Nat) (a : Action) :
    ((s.only id).act a).only id = (s.act a).only id := by
  cases about : a.target with
  | none =>
    cases a with
    | reserve delay =>
      -- The new task may be any other one, so it has to be left out on both sides.
      simp only [act, only, TimerQueue.reserve, TimerQueue.only, having_append, having_having]
    | pass ms => simp [act, only, having_having, TimerQueue.only_only]
    | spawn | record | cancel | look | finish => cases about
  | some j =>
    by_cases own : j = id
    · rw [own] at about
      rw [only_act_own about, only_only]
    · rw [only_act_other about own, only_act_other about own, only_only]

theorem only_run (same : s.only id = s'.only id) (more : List Action) :
    (s.run more).only id = (s'.run more).only id := by
  induction more generalizing s s' with
  | nil => exact same
  | cons a more ih =>
    refine ih ?_
    rw [← only_act s, ← only_act s', same]

end TimerService

end Cadence
