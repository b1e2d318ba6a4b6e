import Cadence.Proofs.CommandLine.Alone
import Cadence.Proofs.Playback.SlowMotion

/-!
# What a run on several threads prints

A tick that has decided that it is the last one stops playback, and broadcasts its snapshot
afterwards. The main task may come between: woken by an earlier snapshot, it finds that playback has
stopped, and then neither waits for the last snapshot nor finds it in the record. A tick that has
armed the next one may be overtaken by it in the same way.

* `Recital.Sound`: what holds whatever overlaps;
* `Recital.InTurn`, `Recital.Patient`: no broadcast overtakes another one, and none is owed when the
  main task looks at the last snapshot;
* **`Recital.keeps_last_step`**: what is printed, and when this is all;
* `Recital.loses_last_step`: a run that ends without its last snapshot, and one with two snapshots
  out of order.
-/

namespace Cadence

variable {ε : Type}

/-- The main task is about to look at the last snapshot. -/
def MainTask.reads : MainTask → Bool
  | .reading => true
  | _ => false

/-- What the main task has found in the record. -/
def MainTask.last? : MainTask → Option Snapshot
  | .removing last | .leaving last | .waiting last _ => some last
  | .listening _ | .reading => none

namespace Recital

open Session

variable {S : Stepper ε} {validator : Option (Record → List FieldError)} {e : ε}
  {committed : List Snapshot} {r : Recital ε} {a : Action}

/-! ## Schedules -/

/-- The action does not overtake a broadcast that is due. -/
def Due (r : Recital ε) : Action → Prop
  | .pass i => r.weave.Due (.pass i)
  | .fire _ | .begin | .complete | .main => True

/-- All broadcasts come in the order in which their ticks have left the engine. -/
def InTurn (S : Stepper ε) (r : Recital ε) : List Action → Prop
  | [] => True
  | a :: actions => r.Due a ∧ InTurn S (r.act S a) actions

/-- If the main task is going to look at the last snapshot, no broadcast is owed. -/
def Waits (r : Recital ε) : Action → Prop
  | .main => r.main.reads → r.weave.owed = []
  | .fire _ | .begin | .complete | .pass _ => True

/-- The main task looks at the last snapshot when no broadcast is owed. -/
def Patient (S : Stepper ε) (r : Recital ε) : List Action → Prop
  | [] => True
  | a :: actions => r.Waits a ∧ Patient S (r.act S a) actions

instance (r : Recital ε) : (a : Action) → Decidable (r.Due a)
  | .pass i => inferInstanceAs (Decidable (r.weave.Due (.pass i)))
  | .fire _ | .begin | .complete | .main => inferInstanceAs (Decidable True)

instance (r : Recital ε) : (a : Action) → Decidable (r.Waits a)
  | .main => inferInstanceAs (Decidable (r.main.reads → r.weave.owed = []))
  | .fire _ | .begin | .complete | .pass _ => inferInstanceAs (Decidable True)

instance decidableInTurn (S : Stepper ε) (r : Recital ε) :
    (actions : List Action) → Decidable (r.InTurn S actions)
  | [] => inferInstanceAs (Decidable True)
  | a :: actions =>
    have := decidableInTurn S (r.act S a) actions
    inferInstanceAs (Decidable (r.Due a ∧ InTurn S (r.act S a) actions))

instance decidablePatient (S : Stepper ε) (r : Recital ε) :
    (actions : List Action) → Decidable (r.Patient S actions)
  | [] => inferInstanceAs (Decidable True)
  | a :: actions =>
    have := decidablePatient S (r.act S a) actions
    inferInstanceAs (Decidable (r.Waits a ∧ Patient S (r.act S a) actions))

/-! ## Every schedule -/

/-- What holds at any time. What was told, or is going to be, are the first snapshot and those of
the ticks. -/
structure Sound (S : Stepper ε) (validator : Option (Record → List FieldError)) (e : ε)
    (committed : List Snapshot) (r : Recital ε) : Prop where
  alone : r.weave.Alone S validator e r.main committed
  loops : r.main ≠ .listening .left
  latest : r.weave.session.Latest
  told : r.weave.told.Perm (S.snapshot e :: (committed ++ r.weave.undecided))

theorem Sound.start (h : Sound S validator e committed r) {a : Session.Action ε}
    (ticks : a.IsTick) :
    Sound S validator e committed { r with weave := r.weave.act S (.start a) } := by
  have alone : (r.weave.act S (.start a)).Alone S validator e r.main committed := by
    rcases ticks with ⟨handle, rfl⟩ | rfl | rfl
    · exact h.alone.fire S handle
    · exact h.alone.begin
    · exact h.alone.complete
  refine ⟨alone, h.loops, Weave.latest_act S h.latest _, ?_⟩
  show (r.weave.act S (.start a)).told.Perm _
  rw [Weave.told_start, h.alone.ahead_eq ticks, Weave.undecided_start, ← List.append_assoc,
    ← List.cons_append]
  exact h.told.append_right _

theorem Sound.pass (h : Sound S validator e committed r) (i : Nat) :
    Sound S validator e (committed ++ (r.weave.commits? i).toList)
      { r with weave := r.weave.pass i } := by
  refine ⟨h.alone.pass i, h.loops, Weave.latest_act S h.latest (.pass i), ?_⟩
  dsimp only
  rw [List.append_assoc, ← h.alone.sole.undecided_pass i]
  exact (Weave.perm_told_pass _ i).trans h.told

theorem Sound.stopped_of_left (h : Sound S validator e committed r) {receiver : Receiver}
    (listening : r.main = .listening receiver)
    (left : receiver.step (r.printed.map (·.stepCount)) r.weave.session.subscribers.isEmpty
      r.weave.session.playing = .left) : r.weave.session.playing = false := by
  cases receiver with
  | left => exact absurd listening h.loops
  | woken received =>
    by_contra playing
    simp [Receiver.step, playing] at left
  | waiting received =>
    rcases h.alone.attended with ⟨u, audience, -⟩ | ⟨-, gone, -⟩
    · cases found : (r.printed.map (·.stepCount))[received]? with
      | none => simp [Receiver.step, found, audience] at left
      | some count => simp [Receiver.step, found] at left
    · rw [listening] at gone
      cases gone

theorem goOn_spec (r : Recital ε) :
    r.goOn.weave.threads = r.weave.threads ∧ Silent r.weave.session r.goOn.weave.session ∧
      r.goOn.weave.session.utterances = r.weave.session.utterances := by
  have idle : Silent r.weave.session r.weave.session := ⟨rfl, rfl, rfl, rfl⟩
  unfold Recital.goOn
  cases r.main with
  | listening receiver =>
    dsimp only
    split
    · exact ⟨rfl, idle, rfl⟩
    · exact ⟨rfl, idle, rfl⟩
  | removing =>
    exact ⟨rfl, r.weave.session.outside_pause.toSilent, r.weave.session.hushed_pause.utterances⟩
  | leaving => exact ⟨rfl, (r.weave.session.outside_enqueue _).toSilent, rfl⟩
  | reading | waiting => exact ⟨rfl, idle, rfl⟩

theorem told_goOn (r : Recital ε) :
    r.goOn.weave.told = r.weave.told ∧ r.goOn.weave.undecided = r.weave.undecided ∧
      r.goOn.weave.owed = r.weave.owed := by
  obtain ⟨threads, silent, -⟩ := r.goOn_spec
  unfold Weave.told Weave.undecided Weave.owed
  rw [threads, silent.broadcasts]
  exact ⟨rfl, rfl, rfl⟩

theorem Sound.goOn (h : Sound S validator e committed r) :
    Sound S validator e committed r.goOn := by
  have goes : r.goOn.weave.Alone S validator e r.goOn.main committed ∧
      r.goOn.main ≠ .listening .left := by
    unfold Recital.goOn
    cases main : r.main with
    | listening receiver =>
      dsimp only
      split
      · next left =>
        have stopped := h.stopped_of_left main left
        exact ⟨h.alone.goOn (by rw [main]; nofun) fun _ => stopped, nofun⟩
      · next goesOn =>
        refine ⟨h.alone.goOn (by rw [main]; nofun) nofun, ?_⟩
        intro same
        exact goesOn (MainTask.listening.inj same)
    | reading =>
      have stopped := h.alone.idle (by rw [main]; rfl)
      exact ⟨h.alone.goOn (by rw [main]; nofun) fun _ => stopped, nofun⟩
    | removing last =>
      have paused := h.alone.pause (h.alone.idle (by rw [main]; rfl))
      have stopped := paused.idle (by rw [main]; rfl)
      exact ⟨paused.goOn (by rw [main]; nofun) fun _ => stopped, nofun⟩
    | leaving last =>
      have stopped := h.alone.idle (by rw [main]; rfl)
      exact ⟨h.alone.leave rfl stopped, nofun⟩
    | waiting last job => exact ⟨h.alone, h.loops⟩
  obtain ⟨told, undecided, -⟩ := r.told_goOn
  obtain ⟨-, silent, -⟩ := r.goOn_spec
  refine ⟨goes.1, goes.2, h.latest.of_eq silent.last silent.broadcasts, ?_⟩
  rw [told, undecided]
  exact h.told

theorem Sound.act (h : Sound S validator e committed r) (a : Action) :
    Sound S validator e (committed ++ (r.commits? a).toList) (r.act S a) := by
  have quiet {r' : Recital ε} (sound : Sound S validator e committed r') :
      Sound S validator e (committed ++ []) r' := by
    rw [List.append_nil]
    exact sound
  cases a with
  | pass i => exact h.pass i
  | fire handle => exact quiet (h.start (.inl ⟨handle, rfl⟩))
  | begin => exact quiet (h.start (.inr (.inl rfl)))
  | complete => exact quiet (h.start (.inr (.inr rfl)))
  | main => exact quiet h.goOn

theorem Sound.run (h : Sound S validator e committed r) (actions : List Action) :
    Sound S validator e (committed ++ r.committed S actions) (r.run S actions) := by
  induction actions generalizing committed r with
  | nil =>
    rw [show r.committed S [] = [] from rfl, List.append_nil]
    exact h
  | cons a actions ih =>
    have next := ih (h.act a)
    rw [List.append_assoc] at next
    exact next

/-! ## The start -/

/-- What was told, or is going to be, when broadcasts come in turn. -/
def InOrder (S : Stepper ε) (e : ε) (committed : List Snapshot) (r : Recital ε) : Prop :=
  r.weave.told = S.snapshot e :: (committed ++ r.weave.undecided)

theorem exists_opened (S : Stepper ε) (validator : Option (Record → List FieldError)) (e : ε) :
    ∃ s : Session ε, ({ validator } : Session ε).run S
        [.subscribe "listener" .plain, .enter (.init e none), .begin] = s ∧
      s = { validator, engine := some e, last := S.snapshot e, nextJob := 1, log := s.log
            subscribers := [⟨1, "listener", .plain, 1⟩], names := [("listener", 1)]
            nextSubscriber := 2 } ∧
      s.heard = [S.snapshot e] ∧ s.broadcasts = [S.snapshot e] :=
  ⟨_, rfl, rfl, rfl, rfl⟩

theorem sound_ready {s : Session ε} {main : MainTask} (checks : s.validator = validator)
    (engine : s.engine = some e) (queue : s.queue = []) (free : s.stepping = false)
    (sole : (⟨s, []⟩ : Weave ε).Sole) (attended : Attended main.gone s)
    (idle : main.listens = false → s.playing = false) (loops : main ≠ .listening .left)
    (latest : s.Latest) (broadcasts : s.broadcasts = [S.snapshot e]) :
    Sound S validator e [] { weave := { session := s }, main } := by
  refine ⟨⟨checks, sole, ?_, nofun, gated_of_free free, manned_of_free free, attended,
    ⟨0, .inl engine, rfl⟩, idle⟩, loops, latest, ?_⟩
  · dsimp only
    rw [queue]
    nofun
  · unfold Weave.told
    dsimp only
    rw [broadcasts]
    exact .refl _

theorem sound_opening (S : Stepper ε) (validator : Option (Record → List FieldError))
    (interval : Nat) (limit : Option Nat) (e : ε) :
    Sound S validator e [] (opening S validator interval limit e) ∧
      InOrder S e [] (opening S validator interval limit e) := by
  obtain ⟨s, opened, ready, heard, broadcasts⟩ := exists_opened S validator e
  have attended : Attended false s :=
    .inl ⟨⟨1, "listener", .plain, 1⟩, by rw [ready], rfl, heard.trans broadcasts.symm⟩
  have latest : s.Latest := by
    rw [Latest, broadcasts, ready]
    rintro b ⟨⟩
    rfl
  have engine : s.engine = some e := by rw [ready]
  have checks : s.validator = validator := by rw [ready]
  have queue : s.queue = [] := by rw [ready]
  have free : s.stepping = false := by rw [ready]
  have stopped : s.playing = false := by rw [ready]
  have unarmed : (⟨s, []⟩ : Weave ε).Sole := by
    rw [ready]
    exact .inl rfl
  unfold opening
  dsimp only
  rw [opened]
  split
  · exact ⟨sound_ready checks engine queue free unarmed attended (fun _ => stopped) nofun latest
      broadcasts, congrArg (· ++ []) broadcasts⟩
  · unfold playLimited
    split
    · exact ⟨sound_ready checks engine queue free unarmed attended nofun nofun latest broadcasts,
        congrArg (· ++ []) broadcasts⟩
    · refine ⟨sound_ready checks engine queue free ?_ (attended.of_said rfl rfl) nofun nofun
        (latest.of_eq rfl rfl) broadcasts, congrArg (· ++ []) broadcasts⟩
      rw [ready]
      exact .inr ⟨rfl, rfl⟩

/-! ## Broadcasts in turn -/

theorem InOrder.act (h : InOrder S e committed r) (sound : Sound S validator e committed r)
    (due : r.Due a) : InOrder S e (committed ++ (r.commits? a).toList) (r.act S a) := by
  have start {a : Session.Action ε} (ticks : a.IsTick) :
      InOrder S e (committed ++ []) { r with weave := r.weave.act S (.start a) } := by
    show (r.weave.act S (.start a)).told = _ :: (_ ++ (r.weave.act S (.start a)).undecided)
    rw [Weave.told_start, sound.alone.ahead_eq ticks, Weave.undecided_start,
      show r.weave.told = _ from h]
    simp
  cases a with
  | fire handle => exact start (.inl ⟨handle, rfl⟩)
  | begin => exact start (.inr (.inl rfl))
  | complete => exact start (.inr (.inr rfl))
  | pass i =>
    show (r.weave.pass i).told =
      _ :: (_ ++ (r.weave.commits? i).toList ++ (r.weave.pass i).undecided)
    rw [Weave.told_pass due, List.append_assoc, ← sound.alone.sole.undecided_pass i]
    exact h
  | main =>
    obtain ⟨told, undecided, -⟩ := r.told_goOn
    show InOrder S e (committed ++ []) r.goOn
    rw [List.append_nil, InOrder, told, undecided]
    exact h

theorem InOrder.run (h : InOrder S e committed r) (sound : Sound S validator e committed r)
    {actions : List Action} (inTurn : r.InTurn S actions) :
    InOrder S e (committed ++ r.committed S actions) (r.run S actions) := by
  induction actions generalizing committed r with
  | nil =>
    rw [show r.committed S [] = [] from rfl, List.append_nil]
    exact h
  | cons a actions ih =>
    have next := ih (h.act sound inTurn.1) (sound.act a) inTurn.2
    rw [List.append_assoc] at next
    exact next

/-! ## The last snapshot -/

theorem utterances_pass (s : Session ε) {x : Section ε} (quiet : x.told? = none) :
    (s.pass x).utterances = s.utterances := by
  cases x with
  | publish => cases quiet
  | commit generation snapshot =>
    unfold Session.pass Session.commit
    dsimp only
    split
    · split <;> rfl
    · rfl
  | enqueue | dismiss | finish => rfl

theorem utterances_turn (S : Stepper ε) (s : Session ε) {a : Session.Action ε}
    (ticks : a.IsTick) :
    (s.turn S a).session.utterances = s.utterances := by
  rcases ticks with ⟨handle, rfl⟩ | rfl | rfl
  · show (s.awaken handle).session.utterances = _
    unfold awaken
    split
    · rfl
    · dsimp only
      split <;> rfl
  · have begun (job : Job ε) : (s.beginStep S job).session.utterances = s.utterances := by
      unfold beginStep
      split
      · exact s.freed_release.utterances
      · split
        · rfl
        · exact s.freed_release.utterances
    have shut := (s.hushed_shutEngine S).1.utterances
    show (s.takeUp S).session.utterances = _
    unfold takeUp
    split
    · rfl
    · split
      · rfl
      · split
        · exact begun _
        · exact begun _
        · unfold runSetInput
          split
          · exact s.freed_release.utterances
          · exact (freed_release _).utterances
        · exact (freed_release _).utterances.trans shut
        · exact (freed_release _).utterances.trans shut
  · show (s.takeLeave S).session.utterances = _
    unfold takeLeave
    split
    · dsimp only
      split
      · exact (freed_release _).utterances
      · rfl
    · rfl

theorem quiet_pass {w : Weave ε} (owed : w.owed = []) (i : Nat) :
    (w.pass i).owed = [] ∧ (w.pass i).session.last = w.session.last ∧
      (w.pass i).session.utterances = w.session.utterances := by
  rcases w.next_or_done i with ⟨x, rest, next, -⟩ | ⟨same, -⟩
  · have quiet : x.told? = none := by
      obtain ⟨back, before, -⟩ := Weave.exists_flatMap_eq Section.told? next
      have nothing := before.symm.trans owed
      simp only [List.append_eq_nil_iff, Option.toList_eq_nil_iff] at nothing
      exact nothing.2.1
    rw [Weave.pass_of_some next]
    exact ⟨(Weave.flatMap_set_of_none next quiet).trans owed,
      (w.session.silent_pass quiet).last, utterances_pass w.session quiet⟩
  · rw [same]
    exact ⟨owed, rfl, rfl⟩

/-- The main task has looked at the last snapshot when nothing was owed, and nothing has been
broadcast since. -/
structure Settled (r : Recital ε) : Prop where
  owed : r.weave.owed = []
  heard : r.weave.session.heard = r.weave.session.broadcasts
  last : r.main.last? = some r.weave.session.last

theorem Settled.of_quiet {r' : Recital ε} (h : Settled r) (main : r'.main.last? = r.main.last?)
    (owed : r'.weave.owed = []) (last : r'.weave.session.last = r.weave.session.last)
    (said : r'.weave.session.utterances = r.weave.session.utterances) : Settled r' where
  owed := owed
  heard := by
    have heard := h.heard
    rw [heard_eq, broadcasts_eq] at heard ⊢
    rw [said]
    exact heard
  last := by rw [main, last, h.last]

theorem deaf_of_last {m : MainTask} {last : Snapshot} (looked : m.last? = some last) :
    m.listens = false := by
  cases m with
  | listening => cases looked
  | reading | removing | leaving | waiting => rfl

theorem Settled.act (h : Settled r) (sound : Sound S validator e committed r) (a : Action) :
    Settled (r.act S a) := by
  have start {a : Session.Action ε} (ticks : a.IsTick) :
      Settled { r with weave := r.weave.act S (.start a) } := by
    have alone := (sound.start ticks).alone
    have decided := alone.sole.undecided_of_idle (alone.idle (deaf_of_last h.last))
    have departs := departs_turn S r.weave.session a
    refine h.of_quiet rfl ?_ departs.last (utterances_turn S _ ticks)
    dsimp only at decided
    rw [Weave.undecided_start] at decided
    obtain ⟨-, ahead⟩ := List.append_eq_nil_iff.mp decided
    show (r.weave.threads ++ [_]).flatMap _ = []
    rw [List.flatMap_append, show r.weave.threads.flatMap _ = [] from h.owed,
      List.flatMap_singleton, sound.alone.ahead_eq ticks, ahead, List.append_nil]
  cases a with
  | fire handle => exact start (.inl ⟨handle, rfl⟩)
  | begin => exact start (.inr (.inl rfl))
  | complete => exact start (.inr (.inr rfl))
  | pass i =>
    obtain ⟨owed, last, said⟩ := quiet_pass h.owed i
    exact h.of_quiet rfl owed last said
  | main =>
    obtain ⟨-, -, owed⟩ := r.told_goOn
    obtain ⟨-, silent, said⟩ := r.goOn_spec
    refine h.of_quiet ?_ (owed.trans h.owed) silent.last said
    have looked := h.last
    unfold Recital.act Action.weave? Recital.goOn
    cases main : r.main with
    | listening | reading =>
      rw [main] at looked
      cases looked
    | removing | leaving => rfl
    | waiting => exact congrArg _ main

/-- **What the main task finds** when it looks at the last snapshot and nothing is owed stays the
last snapshot. -/
theorem Settled.run (h : Settled r) (sound : Sound S validator e committed r)
    (actions : List Action) : Settled (r.run S actions) := by
  induction actions generalizing committed r with
  | nil => exact h
  | cons a actions ih => exact ih (h.act sound a) (sound.act a)

theorem settled_run (sound : Sound S validator e committed r) (unseen : r.main.last? = none)
    {actions : List Action} (patient : r.Patient S actions) {last : Snapshot}
    (looked : (r.run S actions).main.last? = some last) : Settled (r.run S actions) := by
  induction actions generalizing committed r with
  | nil =>
    cases unseen.symm.trans looked
  | cons a actions ih =>
    have next := sound.act a
    cases seen : (r.act S a).main.last? with
    | none => exact ih next seen patient.2 looked
    | some found =>
      refine Settled.run ?_ next actions
      cases a with
      | fire | begin | complete | pass => cases unseen.symm.trans seen
      | main =>
        have owed := patient.1
        show Settled r.goOn
        replace seen : r.goOn.main.last? = some found := seen
        unfold Recital.goOn at seen ⊢
        cases main : r.main with
        | listening receiver =>
          rw [main] at seen
          dsimp only at seen
          split at seen
          · cases seen
          · cases seen
        | reading =>
          exact ⟨owed (by rw [main]; rfl), sound.alone.attended.heard_eq (by rw [main]; nofun), rfl⟩
        | removing | leaving | waiting =>
          rw [main] at unseen
          cases unseen

theorem unseen_opening (S : Stepper ε) (validator : Option (Record → List FieldError))
    (interval : Nat) (limit : Option Nat) (e : ε) :
    (opening S validator interval limit e).main.last? = none := by
  unfold opening
  dsimp only
  split <;> rfl

theorem looked_of_last? {last : Snapshot} (ended : r.last? = some last) :
    r.main.last? = some last := by
  unfold Recital.last? at ended
  split at ended
  · next found job main =>
    split at ended
    · rw [main]
      exact ended
    · cases ended
  · cases ended

/-- **Whatever overlaps**, ticks decide about playback in the order of the attempts that they have
made, and nothing is printed that is not the first snapshot or that of an attempt, nor is anything
printed twice. **If broadcasts come in turn**, they are printed in order, and if the main task looks
at the last snapshot when no broadcast is owed, then all is printed when the command is over, and it
fails exactly if the last one has an error. -/
theorem keeps_last_step (S : Stepper ε) (validator : Option (Record → List FieldError))
    (interval : Nat) (limit : Option Nat) (e : ε) (actions : List Action) :
    let start := opening S validator interval limit e
    let r := start.run S actions
    let committed := start.committed S actions
    ∃ k, committed <+: S.attempts validator e k ∧
      r.printed.Subperm (S.snapshot e :: S.attempts validator e k) ∧
      (start.InTurn S actions →
        r.printed <+: S.snapshot e :: S.attempts validator e k ∧
        (start.Patient S actions → ∀ done, r.completion = some done →
          committed = S.attempts validator e k ∧ r.printed = S.snapshot e :: committed ∧
            (done.code = 1 ↔ (committed.getLastD (S.snapshot e)).isError))) := by
  intro start r committed
  obtain ⟨opened, first⟩ := sound_opening S validator interval limit e
  have sound : Sound S validator e committed r := opened.run actions
  obtain ⟨k, -, made⟩ := sound.alone.attempts
  have heard : r.printed <+: r.weave.told :=
    sound.alone.attended.prefix.trans (List.prefix_append _ _)
  refine ⟨k, made ▸ List.prefix_append _ _, ?_, ?_⟩
  · rw [← made]
    exact heard.sublist.subperm.trans sound.told.subperm
  · intro inTurn
    have ordered : InOrder S e committed r := first.run opened inTurn
    rw [← made]
    refine ⟨show r.printed <+: _ from ordered ▸ heard, ?_⟩
    intro patient done ended
    obtain ⟨last, found, rfl⟩ := Option.map_eq_some_iff.mp ended
    have looked := looked_of_last? found
    have settled : Settled r :=
      settled_run opened (unseen_opening S validator interval limit e) patient looked
    have idle := sound.alone.idle (deaf_of_last looked)
    have decided := sound.alone.sole.undecided_of_idle idle
    have broadcasts : r.weave.session.broadcasts = S.snapshot e :: committed := by
      have all := ordered
      unfold InOrder Weave.told at all
      rw [settled.owed, decided, List.append_nil, List.append_nil] at all
      exact all
    refine ⟨by rw [decided, List.append_nil], settled.heard.trans broadcasts, ?_⟩
    have found : committed.getLastD (S.snapshot e) = last := by
      have latest := sound.latest (committed.getLastD (S.snapshot e))
        (by rw [broadcasts, List.getLast?_cons, List.getLastD_eq_getLast?])
      exact latest.trans (Option.some.inj (settled.last.symm.trans looked))
    rw [found]
    cases error : last.error <;> simp [Completion.code, Completion.ending, Snapshot.isError, error]

/-- Two ticks of an engine whose second step fails, and the main task goes on behind them. -/
def lastStepHeard : List Action :=
  [.fire 1, .pass 0, .begin, .complete, .pass 2, .pass 2, .pass 2,
    .fire 2, .pass 3, .begin, .complete, .pass 5, .pass 5, .pass 5,
    .main, .main, .main, .main, .main, .begin, .pass 6, .pass 6]

/-- All three snapshots are printed, and the command fails. -/
theorem keeps_last_step_lastStepHeard :
    let start := opening Engine.stepper none 0 none shortLived
    let r := start.run Engine.stepper lastStepHeard
    ∃ done, r.completion = some done ∧ r.printed.length = 3 ∧ done.code = 1 := by
  intro start r
  obtain ⟨k, -, -, kept⟩ := keeps_last_step Engine.stepper none 0 none shortLived lastStepHeard
  obtain ⟨done, ended⟩ : ∃ done, r.completion = some done :=
    Option.isSome_iff_exists.mp (by decide +kernel)
  obtain ⟨-, printed, code⟩ := (kept (by decide +kernel)).2 (by decide +kernel) done ended
  refine ⟨done, ended, ?_, code.mpr (by decide +kernel)⟩
  rw [printed]
  decide +kernel

/-- The same two ticks. The main task has taken the first message while playback went on, and takes
the second one when the last tick has stopped playback and has not broadcast yet. -/
def lastStepUnheard : List Action :=
  [.fire 1, .pass 0, .begin, .complete, .pass 2, .main, .main, .pass 2, .pass 2,
    .fire 2, .pass 3, .begin, .complete, .pass 5,
    .main, .main, .main, .main, .main, .begin, .pass 6, .pass 6, .pass 5, .pass 5]

/-- Two ticks of which the second one broadcasts first. -/
def stepsUnordered : List Action :=
  [.fire 1, .pass 0, .begin, .complete, .pass 2,
    .fire 2, .pass 3, .begin, .complete, .pass 5, .pass 5, .pass 5, .pass 2, .pass 2]

/-- The last tick has failed, but its snapshot is not printed and the command succeeds. Where ticks
overlap, the second step is printed before the first one. -/
theorem loses_last_step :
    let start := opening Engine.stepper none 0 none shortLived
    let r := start.run Engine.stepper lastStepUnheard
    let plain := opening Engine.stepper none 0 none Weave.plainEngine
    (start.committed Engine.stepper lastStepUnheard).map Snapshot.isError = [false, true] ∧
      r.printed.map Snapshot.isError = [false, false] ∧
      r.completion.map Completion.code = some 0 ∧ (∀ t ∈ r.weave.threads, t = []) ∧
      (plain.run Engine.stepper stepsUnordered).printed.map (·.stepCount) = [0, 2, 1] := by
  decide +kernel

end Recital

end Cadence
