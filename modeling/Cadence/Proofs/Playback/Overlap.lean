import Cadence.Proofs.Playback.Record

/-!
# The record of a session whose actions overlap

A session keeps the last snapshot that it has broadcast, and reads step counts from this record and
not from the engine. Every change of the engine is broadcast, but not before its job has left the
engine, and then the next job may be faster.

* `Weave.Due`, `Weave.InTurn`: broadcasts come in the order in which their jobs have left the
  engine;
* **`Weave.broadcasts_pass`**: what a critical section does to the engine and to the record;
* `Weave.Mirrors`, `Weave.mirrors_act`: the last snapshot that was broadcast or is owed is one of
  the engine;
* **`Weave.record_agrees`**: if broadcasts come in turn, the record agrees with the engine;
* `Weave.record_behind_engine`: two steps whose broadcasts change places leave the record behind;
* **`Weave.exists_inTurn_run`**: actions that do not overlap have their broadcasts in turn.
-/

namespace Cadence

variable {ε : Type}

namespace Session

variable {S : Stepper ε} {s : Session ε}

theorem playing_playLimited (idle : s.playing = false) (interval max : Nat) :
    (s.playLimited interval (some max)).playing = true ↔ s.last.stepCount < max := by
  unfold playLimited
  by_cases reached : max ≤ s.last.stepCount
  · simp [idle, atLimit, reached]
  · simp [idle, atLimit, reached, arm, note]
    omega

/-- The record is the latest broadcast, if there is one. -/
def Latest (s : Session ε) : Prop := ∀ b, s.broadcasts.getLast? = some b → b = s.last

theorem Latest.of_eq {s' : Session ε} (h : Latest s) (last : s'.last = s.last)
    (broadcasts : s'.broadcasts = s.broadcasts) : Latest s' := by
  unfold Latest
  rw [last, broadcasts]
  exact h

/-- The record has the step count, the input and the outputs of the engine. It has another error
only while the validator objects to the input, and then the text of the objections. It is the latest
broadcast, and playback up to a limit starts exactly if the engine has not taken so many steps. -/
structure Agrees (S : Stepper ε) (s : Session ε) (e : ε) : Prop where
  stepCount : s.last.stepCount = (S.snapshot e).stepCount
  input : s.last.input = (S.snapshot e).input
  outputs : s.last.outputs = (S.snapshot e).outputs
  error : s.last.error = (S.snapshot e).error ∨
    s.objections (S.snapshot e).input ≠ [] ∧
      s.last.error = some (validationMessage (s.objections (S.snapshot e).input))
  latest : s.broadcasts.getLast? = some s.last
  starts : ∀ interval max, s.playing = false →
    ((s.playLimited interval (some max)).playing = true ↔ (S.snapshot e).stepCount < max)

theorem Shown.agrees {e : ε} (shown : Shown S s e s.last)
    (latest : s.broadcasts.getLast? = some s.last) : Agrees S s e := by
  have agrees : s.last.stepCount = (S.snapshot e).stepCount ∧
      s.last.input = (S.snapshot e).input ∧ s.last.outputs = (S.snapshot e).outputs ∧
      (s.last.error = (S.snapshot e).error ∨ s.objections (S.snapshot e).input ≠ [] ∧
        s.last.error = some (validationMessage (s.objections (S.snapshot e).input))) := by
    generalize s.last = record at shown
    cases shown with
    | own => exact ⟨rfl, rfl, rfl, .inl rfl⟩
    | rejected invalid => exact ⟨rfl, rfl, rfl, .inr ⟨invalid, rfl⟩⟩
  obtain ⟨count, input, outputs, error⟩ := agrees
  refine ⟨count, input, outputs, error, latest, ?_⟩
  intro interval max idle
  rw [← count]
  exact playing_playLimited idle interval max

theorem silent_pass (s : Session ε) {x : Section ε} (quiet : x.told? = none) :
    Silent s (s.pass x) := by
  cases x with
  | enqueue kind => exact (s.outside_enqueue kind).toSilent
  | commit generation snapshot =>
    unfold pass commit
    dsimp only
    split
    · split
      · exact ⟨rfl, rfl, rfl, rfl⟩
      · exact ⟨rfl, rfl, rfl, rfl⟩
    · exact ⟨rfl, rfl, rfl, rfl⟩
  | publish => cases quiet
  | dismiss | finish => exact ⟨rfl, rfl, rfl, rfl⟩

theorem told_publish (s : Session ε) (snapshot : Snapshot) :
    (s.publish snapshot).engine = s.engine ∧ (s.publish snapshot).last = snapshot ∧
      (s.publish snapshot).broadcasts = s.broadcasts ++ [snapshot] ∧
      (s.publish snapshot).validator = s.validator := by
  have told := outside_notify (s.announce snapshot) snapshot
  exact ⟨told.engine, told.last, told.broadcasts, told.validator⟩

end Session

namespace Weave

open Session

variable {S : Stepper ε} {w : Weave ε} {x : Section ε} {rest : List (Section ε)} {i : Nat}

/-! ## Threads -/

theorem pass_of_some (next : w.threads[i]? = some (x :: rest)) :
    w.pass i = ⟨w.session.pass x, w.threads.set i rest⟩ := by
  unfold pass
  rw [next]

/-- The snapshot that is broadcast next in a thread. -/
def tells (w : Weave ε) (thread : Nat) : Option Snapshot :=
  (w.threads[thread]?.bind List.head?).bind Section.told?

theorem next_or_done (w : Weave ε) (i : Nat) :
    (∃ x rest, w.threads[i]? = some (x :: rest) ∧ w.tells i = x.told?) ∨
      w.pass i = w ∧ w.tells i = none := by
  unfold pass tells
  cases w.threads[i]? with
  | none => exact .inr ⟨rfl, rfl⟩
  | some t =>
    cases t with
    | nil => exact .inr ⟨rfl, rfl⟩
    | cons x rest => exact .inl ⟨x, rest, rfl, rfl⟩

theorem exists_threads_eq (next : w.threads[i]? = some (x :: rest)) :
    ∃ others, w.threads = w.threads.take i ++ (x :: rest) :: others ∧
      w.threads.set i rest = w.threads.take i ++ rest :: others := by
  obtain ⟨lt, get⟩ := List.getElem?_eq_some_iff.mp next
  refine ⟨w.threads.drop (i + 1), ?_, ?_⟩
  · rw [← get, ← List.drop_eq_getElem_cons lt, List.take_append_drop]
  · rw [List.set_eq_take_append_cons_drop, if_pos lt]

theorem exists_flatMap_eq {β : Type} (f : Section ε → Option β)
    (next : w.threads[i]? = some (x :: rest)) :
    ∃ back, w.threads.flatMap (·.filterMap f) =
        (w.threads.take i).flatMap (·.filterMap f) ++ ((f x).toList ++ back) ∧
      (w.threads.set i rest).flatMap (·.filterMap f) =
        (w.threads.take i).flatMap (·.filterMap f) ++ back := by
  obtain ⟨others, before, after⟩ := exists_threads_eq next
  refine ⟨rest.filterMap f ++ others.flatMap (·.filterMap f), ?_, ?_⟩
  · refine (congrArg (List.flatMap _) before).trans ?_
    cases told : f x <;> simp [told]
  · rw [after]
    simp

theorem flatMap_set_of_none {β : Type} {f : Section ε → Option β}
    (next : w.threads[i]? = some (x :: rest)) (none : f x = none) :
    (w.threads.set i rest).flatMap (·.filterMap f) = w.threads.flatMap (·.filterMap f) := by
  obtain ⟨back, before, after⟩ := exists_flatMap_eq f next
  rw [before, after, none]
  rfl

theorem owed_pass (next : w.threads[i]? = some (x :: rest))
    (due : x.told?.isSome → ∀ t ∈ w.threads.take i, t.filterMap Section.told? = []) :
    w.owed = x.told?.toList ++ (w.pass i).owed := by
  obtain ⟨back, before, after⟩ := exists_flatMap_eq Section.told? next
  rw [pass_of_some next]
  unfold owed
  dsimp only
  rw [before, after]
  cases told : x.told? with
  | none => rfl
  | some snapshot =>
    rw [List.flatMap_eq_nil_iff.mpr (due (told ▸ rfl))]
    rfl

/-! ## Broadcasts in turn -/

/-- The action does not overtake: while a thread in front of it owes a broadcast, it does not make
one. -/
def Due (w : Weave ε) : Action ε → Prop
  | .start _ => True
  | .pass i => (w.tells i).isSome → ∀ t ∈ w.threads.take i, t.filterMap Section.told? = []

/-- All broadcasts of a run come in the order in which their jobs have left the engine. -/
def InTurn (S : Stepper ε) (w : Weave ε) : List (Action ε) → Prop
  | [] => True
  | a :: actions => w.Due a ∧ InTurn S (w.act S a) actions

instance (w : Weave ε) : (a : Action ε) → Decidable (w.Due a)
  | .start _ => inferInstanceAs (Decidable True)
  | .pass i => inferInstanceAs
    (Decidable ((w.tells i).isSome → ∀ t ∈ w.threads.take i, t.filterMap Section.told? = []))

instance decidableInTurn (S : Stepper ε) (w : Weave ε) :
    (actions : List (Action ε)) → Decidable (w.InTurn S actions)
  | [] => inferInstanceAs (Decidable True)
  | a :: actions =>
    have := decidableInTurn S (w.act S a) actions
    inferInstanceAs (Decidable (w.Due a ∧ InTurn S (w.act S a) actions))

/-- The snapshots that were broadcast, and those that are still owed. -/
def told (w : Weave ε) : List Snapshot := w.session.broadcasts ++ w.owed

/-- The last snapshot that was broadcast, or else is owed last, is one of the engine. -/
def Mirrors (S : Stepper ε) (w : Weave ε) : Prop :=
  ∀ e, w.session.engine = some e →
    ∃ snapshot, w.told.getLast? = some snapshot ∧ Shown S w.session e snapshot

theorem told_start (S : Stepper ε) (w : Weave ε) (a : Session.Action ε) :
    (w.act S (.start a)).told =
      w.told ++ (w.session.turn S a).ahead.filterMap Section.told? := by
  have departs := departs_turn S w.session a
  simp [told, act, owed, departs.broadcasts]

/-- **A thread that goes on** leaves the engine alone. What it owes is broadcast, and kept. -/
theorem broadcasts_pass (w : Weave ε) (i : Nat) :
    (w.pass i).session.engine = w.session.engine ∧
      (w.pass i).session.validator = w.session.validator ∧
      (w.pass i).session.broadcasts = w.session.broadcasts ++ (w.tells i).toList ∧
      (w.pass i).session.last = (w.tells i).getD w.session.last := by
  rcases w.next_or_done i with ⟨x, rest, next, tells⟩ | ⟨same, tells⟩
  · rw [pass_of_some next, tells]
    cases told : x.told? with
    | none =>
      have silent := w.session.silent_pass told
      exact ⟨silent.engine, silent.validator, by simp [silent.broadcasts], silent.last⟩
    | some snapshot =>
      cases x with
      | publish snapshot' =>
        obtain rfl : snapshot' = snapshot := Option.some.inj told
        obtain ⟨engine, last, broadcasts, validator⟩ := told_publish w.session snapshot'
        exact ⟨engine, validator, broadcasts, last⟩
      | enqueue | commit | dismiss | finish => cases told
  · rw [same, tells]
    exact ⟨rfl, rfl, (List.append_nil _).symm, rfl⟩

theorem told_pass (due : w.Due (.pass i)) : (w.pass i).told = w.told := by
  obtain ⟨-, -, broadcasts, -⟩ := w.broadcasts_pass i
  unfold told
  rw [broadcasts]
  rcases w.next_or_done i with ⟨x, rest, next, tells⟩ | ⟨same, tells⟩
  · rw [tells, owed_pass next fun some => due (tells ▸ some), List.append_assoc]
  · rw [same, tells]
    simp

theorem perm_told_pass (w : Weave ε) (i : Nat) : (w.pass i).told.Perm w.told := by
  obtain ⟨-, -, broadcasts, -⟩ := w.broadcasts_pass i
  unfold told
  rw [broadcasts, List.append_assoc]
  refine .append_left _ ?_
  rcases w.next_or_done i with ⟨x, rest, next, tells⟩ | ⟨same, tells⟩
  · obtain ⟨back, before, after⟩ := exists_flatMap_eq Section.told? next
    rw [tells, pass_of_some next]
    unfold owed
    dsimp only
    rw [before, after]
    exact List.perm_append_comm_assoc _ _ _
  · rw [same, tells]
    exact .refl _

theorem mirrors_act (h : Mirrors S w) {a : Action ε} (due : w.Due a) :
    Mirrors S (w.act S a) := by
  cases a with
  | start a =>
    intro e bound
    have departs := departs_turn S w.session a
    rw [told_start]
    rcases departs.shown e bound with ⟨before, nothing⟩ | ⟨snapshot, tells, shown⟩
    · obtain ⟨snapshot, latest, shown⟩ := h e before
      exact ⟨snapshot, by rw [nothing, List.append_nil]; exact latest,
        shown.congr departs.validator⟩
    · exact ⟨snapshot, by rw [tells, List.getLast?_concat], shown.congr departs.validator⟩
  | pass i =>
    intro e bound
    obtain ⟨engine, validator, -, -⟩ := w.broadcasts_pass i
    obtain ⟨snapshot, latest, shown⟩ := h e (engine.symm.trans bound)
    exact ⟨snapshot, (told_pass due).symm ▸ latest, shown.congr validator⟩

theorem mirrors_run (h : Mirrors S w) {actions : List (Action ε)} (inTurn : w.InTurn S actions) :
    Mirrors S (w.run S actions) := by
  induction actions generalizing w with
  | nil => exact h
  | cons a actions ih => exact ih (mirrors_act h inTurn.1) inTurn.2

theorem latest_act (S : Stepper ε) (h : w.session.Latest) (a : Action ε) :
    (w.act S a).session.Latest := by
  cases a with
  | start a =>
    have departs := departs_turn S w.session a
    exact h.of_eq departs.last departs.broadcasts
  | pass i =>
    obtain ⟨-, -, broadcasts, last⟩ := w.broadcasts_pass i
    show (w.pass i).session.Latest
    cases tells : w.tells i with
    | none =>
      rw [tells] at broadcasts last
      exact h.of_eq last (broadcasts.trans (List.append_nil _))
    | some snapshot =>
      intro b latest
      rw [broadcasts, tells] at latest
      rw [last, tells]
      simpa [eq_comm] using latest

theorem latest_run (S : Stepper ε) (h : w.session.Latest) (actions : List (Action ε)) :
    (w.run S actions).session.Latest := by
  induction actions generalizing w with
  | nil => exact h
  | cons a actions ih => exact ih (latest_act S h a)

/-! ## The record -/

theorem Mirrors.agrees {e : ε} (h : Mirrors S w) (latest : w.session.Latest) (settled : w.owed = [])
    (bound : w.session.engine = some e) : w.session.Agrees S e := by
  obtain ⟨snapshot, last, shown⟩ := h e bound
  unfold told at last
  rw [settled, List.append_nil] at last
  obtain rfl := latest snapshot last
  exact shown.agrees last

/-- **The record agrees with the engine** whenever broadcasts come in turn and none is owed,
whatever overlaps apart from that. If they do not come in turn, it is still the latest broadcast. -/
theorem record_agrees (S : Stepper ε) (cancels : Bool)
    (validator : Option (Record → List FieldError)) (actions : List (Action ε)) :
    let fresh : Weave ε := { session := { cancels, validator } }
    let w := fresh.run S actions
    w.session.Latest ∧
      (fresh.InTurn S actions → w.owed = [] →
        ∀ e, w.session.engine = some e → w.session.Agrees S e) := by
  intro fresh w
  have latest : w.session.Latest := latest_run S (w := fresh) nofun actions
  refine ⟨latest, ?_⟩
  intro inTurn settled e bound
  have mirrors : Mirrors S w := mirrors_run (w := fresh) nofun inTurn
  exact mirrors.agrees latest settled bound

/-- An engine without outputs, at the empty input. -/
def plainEngine : Engine := .create default .empty .single .empty

/-- The engine is bound, and two callers order a step of it. The second one steps the engine and
broadcasts its snapshot before the first one has broadcast. -/
def stepsOvertaking : List (Action Engine) :=
  [.start (.enter (.init plainEngine none)), .pass 0, .start .begin, .pass 1, .pass 1,
    .start (.enter .step), .start (.enter .step), .start .begin, .start .complete,
    .start .begin, .start .complete, .pass 7, .pass 7, .pass 5, .pass 5]

/-- All is done, and the record is a step behind the engine. Playback up to two steps starts. -/
theorem record_behind_engine :
    let w := ({} : Weave Engine).run Engine.stepper stepsOvertaking
    (∀ t ∈ w.threads, t = []) ∧ w.session.queue.length = 0 ∧ w.session.stepping = false ∧
      w.session.engine.map (·.stepCount) = some 2 ∧ w.session.last.stepCount = 1 ∧
      (w.session.playLimited 100 (some 2)).playing = true := by
  decide +kernel

/-- The same, but each of the two broadcasts before the other one is done with the engine. -/
def stepsInTurn : List (Action Engine) :=
  [.start (.enter (.init plainEngine none)), .pass 0, .start .begin, .pass 1, .pass 1,
    .start (.enter .step), .start (.enter .step), .start .begin, .start .complete,
    .start .begin, .pass 5, .start .complete, .pass 7, .pass 5, .pass 7]

/-- The record has both steps, and playback up to two steps does not start. -/
theorem record_agrees_stepsInTurn :
    let w := ({} : Weave Engine).run Engine.stepper stepsInTurn
    w.session.last.stepCount = 2 ∧ (w.session.playLimited 100 (some 2)).playing ≠ true := by
  intro w
  have agrees : w.session.Agrees Engine.stepper (plainEngine.step.step) :=
    (record_agrees Engine.stepper true none stepsInTurn).2 (by decide +kernel) rfl _ rfl
  exact ⟨agrees.stepCount, fun playing => Nat.lt_irrefl 2 ((agrees.starts 100 2 rfl).mp playing)⟩

/-! ## Actions that do not overlap -/

theorem inTurn_append {w : Weave ε} {before after : List (Action ε)} :
    w.InTurn S (before ++ after) ↔ w.InTurn S before ∧ (w.run S before).InTurn S after := by
  induction before generalizing w with
  | nil => simp [InTurn, run]
  | cons a before ih => simp [InTurn, ih, and_assoc, run]

theorem exists_run_through (S : Stepper ε) (s : Session ε) (ahead : List (Section ε))
    {others : List (List (Section ε))} (settled : others.flatMap (·.filterMap Section.told?) = []) :
    ∃ actions, (⟨s, others ++ [ahead]⟩ : Weave ε).InTurn S actions ∧
      (⟨s, others ++ [ahead]⟩ : Weave ε).run S actions =
        ⟨(⟨s, ahead⟩ : Turn ε).through, others ++ [[]]⟩ := by
  induction ahead generalizing s with
  | nil => exact ⟨[], trivial, rfl⟩
  | cons x rest ih =>
    obtain ⟨actions, inTurn, through⟩ := ih (s.pass x)
    have passed : (⟨s, others ++ [x :: rest]⟩ : Weave ε).act S (.pass others.length) =
        ⟨s.pass x, others ++ [rest]⟩ := by
      simp [act, pass]
    refine ⟨.pass others.length :: actions, ⟨?_, ?_⟩, ?_⟩
    · intro _ t mem
      rw [List.take_left] at mem
      exact List.flatMap_eq_nil_iff.mp settled t mem
    · rw [passed]
      exact inTurn
    · show Weave.run S (act S _ _) actions = _
      rw [passed]
      exact through

/-- **Actions that do not overlap** are a run in turn that owes nothing. -/
theorem exists_inTurn_run (S : Stepper ε) {w : Weave ε} (settled : w.owed = [])
    (actions : List (Session.Action ε)) :
    ∃ schedule, w.InTurn S schedule ∧ (w.run S schedule).owed = [] ∧
      (w.run S schedule).session = w.session.run S actions := by
  induction actions generalizing w with
  | nil => exact ⟨[], trivial, settled, rfl⟩
  | cons a actions ih =>
    let turn := w.session.turn S a
    obtain ⟨passes, inTurn, through⟩ := exists_run_through S turn.session turn.ahead settled
    have settled' : (⟨turn.through, w.threads ++ [[]]⟩ : Weave ε).owed = [] := by
      show (w.threads ++ [[]]).flatMap _ = []
      rw [List.flatMap_append, show w.threads.flatMap _ = [] from settled]
      rfl
    obtain ⟨schedule, later, settles, same⟩ := ih settled'
    have ran : w.run S (.start a :: passes) = ⟨turn.through, w.threads ++ [[]]⟩ := through
    refine ⟨.start a :: passes ++ schedule, ?_, ?_, ?_⟩
    · rw [inTurn_append, ran]
      exact ⟨⟨trivial, inTurn⟩, later⟩
    · rw [run, List.foldl_append, ← run, ← run, ran]
      exact settles
    · rw [run, List.foldl_append, ← run, ← run, ran]
      exact same

end Weave

namespace Session

theorem agrees_run (S : Stepper ε) (cancels : Bool)
    (validator : Option (Record → List FieldError)) (actions : List (Action ε)) {e : ε} :
    let s := ({ cancels, validator } : Session ε).run S actions
    s.engine = some e → s.Agrees S e := by
  intro s bound
  let fresh : Weave ε := { session := { cancels, validator } }
  obtain ⟨schedule, inTurn, settled, same⟩ := fresh.exists_inTurn_run S rfl actions
  have same : (fresh.run S schedule).session = s := same
  rw [← same] at bound ⊢
  have mirrors : Weave.Mirrors S (fresh.run S schedule) := Weave.mirrors_run nofun inTurn
  exact mirrors.agrees (Weave.latest_run S (w := fresh) nofun schedule) settled bound

end Session

end Cadence
