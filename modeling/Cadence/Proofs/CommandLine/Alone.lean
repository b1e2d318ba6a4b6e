import Cadence.CommandLine.Recital
import Cadence.Proofs.Playback.Delivery
import Cadence.Proofs.Playback.OneTick
import Cadence.Proofs.Playback.Playthrough

/-!
# A session that plays for a command alone

While a session plays for a command on several threads, nobody but its ticks and the main task of
the command uses it. Then one tick at a time has not decided about playback yet, and so the attempts
to step come one after another, whatever overlaps behind them.

* `Session.Attended`: the listener has heard every broadcast;
* `Weave.Alone`: what holds of the session and its threads at any time;
* **`Weave.Alone.fire`**, **`Weave.Alone.begin`**, **`Weave.Alone.complete`**,
  **`Weave.Alone.pass`**: it is kept, and the only tick decides with the next attempt.
-/

namespace Cadence

variable {ε : Type}

namespace MainTask

/-- The main task is in its receive loop. -/
def listens : MainTask → Bool
  | .listening _ => true
  | _ => false

/-- The main task waits for its job. -/
def gone : MainTask → Bool
  | .waiting .. => true
  | _ => false

theorem deaf_of_gone {m : MainTask} (gone : m.gone) : m.listens = false := by
  cases m with
  | waiting => rfl
  | listening | reading | removing | leaving => cases gone

end MainTask

/-- The snapshot that is called out to a listener. -/
def Utterance.called? : Utterance → Option Snapshot
  | .told _ => none
  | .called _ snapshot => some snapshot

namespace Session

variable {S : Stepper ε} {s s' : Session ε}

theorem heard_eq (s : Session ε) : s.heard = s.utterances.filterMap Utterance.called? := by
  unfold heard utterances
  rw [List.filterMap_reverse, List.filterMap_reverse, List.filterMap_filterMap]
  congr 2
  funext e
  cases e <;> rfl

/-- The action is of a tick, or of a job at the engine. -/
def Action.IsTick (a : Action ε) : Prop :=
  (∃ handle, a = .fire handle) ∨ a = .begin ∨ a = .complete

theorem exists_destroyed_eq (S : Stepper ε) (s : Session ε) :
    ∃ log, (s.shutEngine S).release =
      { s with engine := none, queue := s.queue.tail, stepping := false, log } := by
  obtain ⟨log, -, released⟩ := (s.shutEngine S).exists_release_eq
  refine ⟨log, ?_⟩
  rw [released]
  unfold shutEngine
  split
  · next none => rw [← none]
  · rfl

theorem publish_nobody (nobody : s.subscribers = []) (snapshot : Snapshot) :
    s.publish snapshot = { s with last := snapshot, log := .broadcast snapshot :: s.log } := by
  simp [publish, nobody, note]

/-- The one listener has heard every broadcast, unless it was removed. -/
def Attended (removed : Prop) (s : Session ε) : Prop :=
  (∃ u, s.subscribers = [u] ∧ u.listener = .plain ∧ s.heard = s.broadcasts) ∨
    s.subscribers = [] ∧ removed ∧ s.heard <+: s.broadcasts

theorem Attended.of_said {removed : Prop} (h : Attended removed s)
    (subscribers : s'.subscribers = s.subscribers) (said : s'.utterances = s.utterances) :
    Attended removed s' := by
  have heard : s'.heard = s.heard := by rw [heard_eq, said, ← heard_eq]
  have told : s'.broadcasts = s.broadcasts := by rw [broadcasts_eq, said, ← broadcasts_eq]
  unfold Attended
  rw [subscribers, heard, told]
  exact h

theorem Attended.heard_eq {removed : Prop} (h : Attended removed s) (stays : ¬removed) :
    s.heard = s.broadcasts := by
  rcases h with ⟨_, _, _, heard⟩ | ⟨_, gone, _⟩
  · exact heard
  · exact absurd gone stays

theorem Attended.prefix {removed : Prop} (h : Attended removed s) : s.heard <+: s.broadcasts := by
  rcases h with ⟨_, _, _, heard⟩ | ⟨_, _, heard⟩
  · exact heard ▸ List.prefix_rfl
  · exact heard

theorem Attended.exists_publish_eq {removed : Prop} (h : Attended removed s) (snapshot : Snapshot) :
    ∃ subscribers log, s.publish snapshot = { s with last := snapshot, subscribers, log } := by
  rcases h with ⟨u, audience, plain, -⟩ | ⟨nobody, -⟩
  · exact ⟨_, _, publish_plain audience plain snapshot⟩
  · exact ⟨s.subscribers, _, publish_nobody nobody snapshot⟩

theorem Attended.publish {removed : Prop} (h : Attended removed s) (snapshot : Snapshot) :
    Attended removed (s.publish snapshot) := by
  obtain ⟨-, -, told, -⟩ := told_publish s snapshot
  rcases h with ⟨u, audience, plain, heard⟩ | ⟨nobody, gone, heard⟩
  · refine .inl ⟨{ u with calls := u.calls + 1 }, ?_, plain, ?_⟩
    · rw [publish_plain audience plain]
    · rw [told, ← heard, publish_plain audience plain]
      simp [Session.heard]
      rfl
  · have deaf : (s.publish snapshot).heard = s.heard := by
      rw [publish_nobody nobody]
      simp [Session.heard, SessionEvent.heard?]
    refine .inr ⟨?_, gone, ?_⟩
    · rw [publish_nobody nobody]
      exact nobody
    · rw [deaf, told]
      exact heard.trans (List.prefix_append _ _)

end Session

namespace Weave

open Session

variable {S : Stepper ε} {w : Weave ε}

/-- What a thread has ahead while nobody but the main task uses the session. -/
inductive Fits (removed : Prop) : List (Section ε) → Prop
  | arriving (generation : Nat) : Fits removed [.enqueue (.tick generation)]
  | deciding (generation : Nat) (snapshot : Snapshot) (job : Nat) :
      Fits removed [.commit generation snapshot, .publish snapshot, .finish job (some snapshot)]
  | telling (snapshot : Snapshot) (job : Nat) :
      Fits removed [.publish snapshot, .finish job (some snapshot)]
  | dismissing (gone : removed) (job : Nat) : Fits removed [.dismiss, .finish job none]
  | returning (job : Nat) (result : Option Snapshot) : Fits removed [.finish job result]
  | done : Fits removed []

/-- A session that nobody but the main task has used since playback started. Playback has stopped
when the main task does not listen any more. These ticks have decided about playback. -/
structure Alone (S : Stepper ε) (validator : Option (Record → List FieldError)) (e : ε)
    (main : MainTask) (committed : List Snapshot) (w : Weave ε) : Prop where
  checks : w.session.validator = validator
  sole : w.Sole
  queue : ∀ job ∈ w.session.queue,
    (∃ generation, job.kind = .tick generation) ∨ job.kind = .order .destroy ∧ main.gone
  threads : ∀ t ∈ w.threads, Fits main.gone t
  gated : Gated S w.session
  manned : Manned w.session
  attended : Attended main.gone w.session
  attempts : ∃ k, (w.session.engine = some (S.tried validator e k) ∨
    w.session.engine = none ∧ main.gone) ∧ committed ++ w.undecided = S.attempts validator e k
  idle : main.listens = false → w.session.playing = false

variable {validator : Option (Record → List FieldError)} {e : ε} {main : MainTask}
  {committed : List Snapshot} {x : Section ε} {rest ahead : List (Section ε)} {i : Nat}

theorem Alone.stopped (h : Alone S validator e main committed w) (gone : main.gone) :
    w.session.playing = false := h.idle (MainTask.deaf_of_gone gone)

theorem Alone.fits_set (h : Alone S validator e main committed w) (fits : Fits main.gone rest) :
    ∀ t ∈ w.threads.set i rest, Fits main.gone t := by
  intro t mem
  rcases List.mem_or_eq_of_mem_set mem with old | rfl
  · exact h.threads t old
  · exact fits

theorem append_decided {told : List Snapshot} (made : committed ++ w.undecided = told)
    (decided : ahead.filterMap Section.undecided? = []) :
    committed ++ (w.undecided ++ ahead.filterMap Section.undecided?) = told := by
  rw [decided, List.append_nil, made]

/-! ## An action starts -/

theorem Alone.turn (h : Alone S validator e main committed w) {t : Turn ε}
    (checks : t.session.validator = w.session.validator)
    (playing : t.session.playing = w.session.playing)
    (subscribers : t.session.subscribers = w.session.subscribers)
    (said : t.session.utterances = w.session.utterances)
    (queue : ∀ job ∈ t.session.queue, job ∈ w.session.queue)
    (sole : (⟨t.session, w.threads ++ [t.ahead]⟩ : Weave ε).Sole) (fits : Fits main.gone t.ahead)
    (gated : Gated S t.session) (manned : Manned t.session)
    (attempts : ∃ k, (t.session.engine = some (S.tried validator e k) ∨
      t.session.engine = none ∧ main.gone) ∧
        committed ++ (w.undecided ++ t.ahead.filterMap Section.undecided?) =
          S.attempts validator e k) :
    Alone S validator e main committed ⟨t.session, w.threads ++ [t.ahead]⟩ := by
  refine ⟨checks.trans h.checks, sole, fun job mem => h.queue job (queue job mem), ?_, gated,
    manned, h.attended.of_said subscribers said, ?_, fun deaf => playing.trans (h.idle deaf)⟩
  · intro thread mem
    rcases List.mem_append.mp mem with old | new
    · exact h.threads thread old
    · rw [List.mem_singleton.mp new]
      exact fits
  · rw [undecided_concat t.session w.session]
    exact attempts

theorem Alone.still (h : Alone S validator e main committed w) :
    Alone S validator e main committed ⟨w.session, w.threads ++ [[]]⟩ := by
  obtain ⟨k, engine, made⟩ := h.attempts
  refine h.turn (t := ⟨w.session, []⟩) rfl rfl rfl rfl (fun _ => id) ?_ .done h.gated h.manned
    ⟨k, engine, append_decided made rfl⟩
  have sole := h.sole
  unfold Sole at sole ⊢
  rw [ticks_concat]
  simpa using sole

/-- **A tick is started** while it is the only one. -/
theorem Alone.fire (h : Alone S validator e main committed w) (S' : Stepper ε) (handle : Nat) :
    Alone S validator e main committed (w.act S' (.start (.fire handle))) := by
  show Alone S validator e main committed
    ⟨(w.session.awaken handle).session, w.threads ++ [(w.session.awaken handle).ahead]⟩
  cases found : w.session.armed.find? (·.handle = handle) with
  | none =>
    have unfired : w.session.awaken handle = ⟨w.session, []⟩ := by
      unfold awaken
      rw [found]
    rw [unfired]
    exact h.still
  | some tick =>
    obtain ⟨k, engine, made⟩ := h.attempts
    obtain ⟨armed, current, queue, threads⟩ := h.sole.armed_eq (List.mem_of_find?_eq_some found)
    have handed : tick.handle = handle := by simpa using List.find?_some found
    let s : Session ε := { w.session with armed := [] }
    have fired : w.session.awaken handle = ⟨s, [.enqueue (.tick tick.generation)]⟩ := by
      have current : s.isCurrent tick.generation = true := current
      simp [awaken, armed, handed, current, s]
    rw [fired]
    refine h.turn (t := ⟨s, [.enqueue (.tick tick.generation)]⟩) rfl rfl rfl rfl (fun _ => id) ?_
      (.arriving _) h.gated h.manned ⟨k, engine, append_decided made rfl⟩
    exact sole_of_one (g := tick.generation) current
      (by simp [ticks, s, queue, threads, Section.tick?])

theorem Alone.quit (h : Alone S validator e main committed w) {job : Job ε}
    {others : List (Job ε)} {g k : Nat} (head : w.session.queue = job :: others)
    (kind : job.kind = .tick g) (made : committed ++ w.undecided = S.attempts validator e k)
    {s : Session ε} {snapshot : Snapshot}
    (same : s = { w.session with engine := some (S.tried validator e (k + 1)) })
    (attempt : snapshot = (S.attempt validator (S.tried validator e k)).2) :
    Alone S validator e main committed
      ⟨(s.quit job snapshot).session, w.threads ++ [(s.quit job snapshot).ahead]⟩ := by
  obtain ⟨current, armed, queue, threads⟩ := h.sole.head_eq head kind
  have ahead : (s.quit job snapshot).ahead =
      [.commit g snapshot, .publish snapshot, .finish job.id (some snapshot)] := by
    simp [Session.quit, closing, kind]
  obtain ⟨log, logged, released⟩ := s.exists_release_eq
  have said : s.release.utterances = w.session.utterances := by
    rw [s.freed_release.utterances, same]
    rfl
  have free : (s.quit job snapshot).session.stepping = false := s.stepping_release
  refine h.turn (t := s.quit job snapshot) ?_ ?_ ?_ said ?_ ?_ ?_ (gated_of_free free)
    (manned_of_free free) ?_
  · show s.release.validator = _
    rw [released, same]
  · show s.release.playing = _
    rw [released, same]
  · show s.release.subscribers = _
    rw [released, same]
  · intro job' mem
    have tail : job' ∈ s.queue.tail := s.freed_release.queue ▸ mem
    rw [same] at tail
    exact List.mem_of_mem_tail tail
  · rw [ahead]
    refine sole_of_one (g := g) ?_ ?_
    · show s.release.isCurrent g = true
      rw [released, same]
      exact current
    · show ticks ⟨s.release, _⟩ = _
      rw [released, same]
      simp [ticks, armed, head, queue, threads, Section.tick?]
  · rw [ahead]
    exact .deciding _ _ _
  · refine ⟨k + 1, .inl ?_, ?_⟩
    · show s.release.engine = _
      rw [released, same]
    · rw [ahead, Stepper.attempts_succ, ← made, attempt]
      simp [Section.undecided?]

theorem Alone.beginStep (h : Alone S validator e main committed w) {job : Job ε}
    {others : List (Job ε)} {g : Nat} (head : w.session.queue = job :: others)
    (kind : job.kind = .tick g) :
    let t := w.session.beginStep S job
    Alone S validator e main committed ⟨t.session, w.threads ++ [t.ahead]⟩ := by
  intro t
  obtain ⟨current, -⟩ := h.sole.head_eq head kind
  obtain ⟨k, engine, made⟩ := h.attempts
  have bound : w.session.engine = some (S.tried validator e k) := by
    refine engine.resolve_right fun ⟨_, gone⟩ => ?_
    rw [isCurrent, h.stopped gone] at current
    cases current
  have objections (input : Record) :
      w.session.objections input = Stepper.objections validator input := by
    rw [← h.checks]
    rfl
  unfold t Session.beginStep
  simp only [bound, objections]
  cases passes : Stepper.objections validator (S.snapshot (S.tried validator e k)).input with
  | nil =>
    refine h.turn (t := ⟨_, []⟩) rfl rfl rfl rfl (fun _ => id) ?_ .done ?_ ?_
      ⟨k, .inl rfl, append_decided made rfl⟩
    · rw [Sole, ticks_concat]
      rcases h.sole with none | one
      · exact .inl ((List.append_nil _).trans none)
      · exact .inr ⟨one.1, (List.append_nil _).trans one.2⟩
    · exact fun _ => ⟨_, rfl, (objections _).trans passes⟩
    · exact fun _ => ⟨job, others, head, by simp [Job.steps, kind]⟩
  | cons first rest =>
    have refused := Stepper.attempt_of_refused passes
    refine h.quit head kind made ?_ ?_
    · rw [Stepper.tried_succ, refused, ← bound]
    · rw [refused]

theorem Alone.runDestroy (h : Alone S validator e main committed w) {job : Job ε}
    {others : List (Job ε)} (head : w.session.queue = job :: others)
    (kind : job.kind = .order .destroy) (gone : main.gone) :
    let t := w.session.runDestroy S job
    Alone S validator e main committed ⟨t.session, w.threads ++ [t.ahead]⟩ := by
  intro t
  have none := h.sole.ticks_of_idle (h.stopped gone)
  obtain ⟨k, -, made⟩ := h.attempts
  obtain ⟨log, removal⟩ := w.session.exists_destroyed_eq S
  have said : (w.session.shutEngine S).release.utterances = w.session.utterances :=
    (freed_release _).utterances.trans (w.session.hushed_shutEngine S).1.utterances
  unfold t Session.runDestroy
  rw [removal] at said ⊢
  refine h.turn (t := ⟨_, [.dismiss, .finish job.id .none]⟩) rfl rfl rfl said
    (fun _ mem => List.mem_of_mem_tail mem) ?_ (.dismissing gone _) (gated_of_free rfl)
    (manned_of_free rfl) ⟨k, .inr ⟨rfl, gone⟩, append_decided made rfl⟩
  refine .inl ((ticks_concat _ _).trans ?_)
  have same : (⟨{ w.session with
      engine := .none, queue := w.session.queue.tail, stepping := false, log },
      w.threads⟩ : Weave ε).ticks = w.ticks := by
    simp [ticks, head, Job.tick?, kind]
  rw [same, none]
  rfl

/-- **The head of the queue goes to work.** -/
theorem Alone.begin (h : Alone S validator e main committed w) :
    Alone S validator e main committed (w.act S (.start .begin)) := by
  show Alone S validator e main committed
    ⟨(w.session.takeUp S).session, w.threads ++ [(w.session.takeUp S).ahead]⟩
  unfold takeUp
  cases head : w.session.queue with
  | nil => exact h.still
  | cons job others =>
    dsimp only
    split
    · exact h.still
    · rcases h.queue job (head ▸ List.mem_cons_self) with ⟨g, kind⟩ | ⟨kind, gone⟩
      · rw [kind]
        exact h.beginStep head kind
      · rw [kind]
        exact h.runDestroy head kind gone

/-- **The step of the engine is over**, and the tick leaves with the snapshot of an attempt. -/
theorem Alone.complete (h : Alone S validator e main committed w) :
    Alone S validator e main committed (w.act S (.start .complete)) := by
  show Alone S validator e main committed
    ⟨(w.session.takeLeave S).session, w.threads ++ [(w.session.takeLeave S).ahead]⟩
  by_cases busy : w.session.stepping = true
  · obtain ⟨job, others, head, steps⟩ := h.manned busy
    obtain ⟨e', bound, valid⟩ := h.gated busy
    obtain ⟨k, engine, made⟩ := h.attempts
    have same : e' = S.tried validator e k := by
      rcases engine with engine | ⟨none, -⟩
      · exact Option.some.inj (bound.symm.trans engine)
      · cases bound.symm.trans none
    have passes : Stepper.objections validator (S.snapshot (S.tried validator e k)).input = [] := by
      rw [← same, ← valid, ← h.checks]
      rfl
    have attempt := Stepper.attempt_of_passes passes
    have left : w.session.takeLeave S =
        { w.session with engine := some (S.step e') }.quit job (S.snapshot (S.step e')) := by
      unfold takeLeave
      simp only [head, bound, busy, if_true]
    rw [left]
    rcases h.queue job (head ▸ List.mem_cons_self) with ⟨g, kind⟩ | ⟨kind, -⟩
    · refine h.quit head kind made ?_ ?_
      · rw [Stepper.tried_succ, attempt, same]
      · rw [attempt, same]
    · simp [Job.steps, kind] at steps
  · have idle : w.session.takeLeave S = ⟨w.session, []⟩ := by
      unfold takeLeave
      split
      · dsimp only
        rw [if_neg busy]
      · rfl
    rw [idle]
    exact h.still

/-! ## A thread goes on -/

theorem Alone.pass_other (h : Alone S validator e main committed w)
    (next : w.threads[i]? = some (x :: rest)) (quiet : x.tick? = none)
    (fits : Fits main.gone rest) {s : Session ε} (checks : s.validator = w.session.validator)
    (playing : s.playing = w.session.playing) (generation : s.generation = w.session.generation)
    (armed : s.armed = w.session.armed) (queue : s.queue = w.session.queue)
    (stepping : s.stepping = w.session.stepping) (engine : s.engine = w.session.engine)
    (attended : Attended main.gone s) :
    Alone S validator e main committed ⟨s, w.threads.set i rest⟩ := by
  have ticks : (⟨s, w.threads.set i rest⟩ : Weave ε).ticks = w.ticks := by
    unfold Weave.ticks
    rw [armed, queue, flatMap_set_of_none next quiet]
  have undecided : (⟨s, w.threads.set i rest⟩ : Weave ε).undecided = w.undecided :=
    flatMap_set_of_none next (Section.undecided_of_tick quiet)
  refine ⟨checks.trans h.checks, ?_, queue ▸ h.queue, h.fits_set fits, ?_, ?_, attended, ?_,
    fun deaf => playing.trans (h.idle deaf)⟩
  · have sole := h.sole
    unfold Sole at sole ⊢
    rw [ticks]
    dsimp only
    rw [playing, generation]
    exact sole
  · have gated := h.gated
    unfold Gated objections at gated ⊢
    rw [stepping, engine, checks]
    exact gated
  · have manned := h.manned
    unfold Manned at manned ⊢
    rw [stepping, queue]
    exact manned
  · dsimp only
    rw [undecided, engine]
    exact h.attempts

theorem Alone.pass_arriving (h : Alone S validator e main committed w) {g : Nat}
    (next : w.threads[i]? = some [.enqueue (.tick g)]) :
    Alone S validator e main committed (w.pass i) := by
  obtain ⟨current, armed, queue, threads⟩ := h.sole.next_eq next rfl
  have undecided := flatMap_set_of_none (f := Section.undecided?) next rfl
  have outside := w.session.outside_enqueue (.tick g)
  rw [pass_of_some next]
  refine ⟨h.checks, ?_, ?_, h.fits_set .done, outside.gated h.gated, outside.manned h.manned,
    h.attended, ?_, h.idle⟩
  · exact sole_of_one (g := g) current (by
      simp [ticks, Session.pass, enqueue, armed, queue, threads, Job.tick?])
  · intro job mem
    rcases List.mem_append.mp mem with old | new
    · exact h.queue job old
    · rw [List.mem_singleton.mp new]
      exact .inl ⟨g, rfl⟩
  · obtain ⟨k, engine, made⟩ := h.attempts
    refine ⟨k, engine, ?_⟩
    rw [← made]
    exact congrArg (committed ++ ·) undecided

theorem Alone.pass_deciding (h : Alone S validator e main committed w) {g job : Nat}
    {snapshot : Snapshot}
    (next : w.threads[i]? =
      some [.commit g snapshot, .publish snapshot, .finish job (some snapshot)]) :
    Alone S validator e main (committed ++ [snapshot]) (w.pass i) := by
  obtain ⟨current, armed, queue, threads⟩ := h.sole.next_eq next rfl
  obtain ⟨one, none⟩ := h.sole.undecided_eq next
  have playing := (isCurrent_iff.mp current).1
  have fits := h.fits_set (i := i) (.telling snapshot job)
  have attempts : ∃ k, (w.session.engine = some (S.tried validator e k) ∨
      w.session.engine = .none ∧ main.gone) ∧
        committed ++ [snapshot] ++
          (w.threads.set i [.publish snapshot, .finish job (some snapshot)]).flatMap
            (·.filterMap Section.undecided?) = S.attempts validator e k := by
    obtain ⟨k, engine, made⟩ := h.attempts
    exact ⟨k, engine, by rw [none, List.append_nil, ← made, one]⟩
  rw [pass_of_some next]
  show Alone S validator e main _ ⟨w.session.commit g snapshot, _⟩
  rw [Session.commit, if_pos current]
  split
  · refine ⟨h.checks, .inl ?_, h.queue, fits, h.gated, h.manned, h.attended, attempts,
      fun _ => rfl⟩
    simp [ticks, armed, queue, threads]
  · refine ⟨h.checks, ?_, h.queue, fits, h.gated, h.manned,
      h.attended.of_said rfl rfl, attempts, ?_⟩
    · refine sole_of_one (g := w.session.generation + 1) ?_ ?_
      · exact isCurrent_iff.mpr ⟨playing, rfl⟩
      · simp [ticks, arm, note, armed, queue, threads]
    · intro deaf
      rw [h.idle deaf] at playing
      cases playing

/-- **A thread goes on.** -/
theorem Alone.pass (h : Alone S validator e main committed w) (i : Nat) :
    Alone S validator e main (committed ++ (w.commits? i).toList) (w.pass i) := by
  rcases w.pass_or_done i with ⟨x, rest, next⟩ | ⟨same, none⟩
  · rw [h.sole.commits?_eq next]
    have quiet (none : x.undecided? = none) : committed ++ x.undecided?.toList = committed := by
      rw [none, Option.toList_none, List.append_nil]
    cases h.threads _ (List.mem_of_getElem? next) with
    | arriving g =>
      rw [quiet rfl]
      exact h.pass_arriving next
    | deciding g snapshot job => exact h.pass_deciding next
    | telling snapshot job =>
      have attended := h.attended.publish snapshot
      obtain ⟨_, _, published⟩ := h.attended.exists_publish_eq snapshot
      rw [quiet rfl, pass_of_some next]
      show Alone S validator e main committed ⟨w.session.publish snapshot, _⟩
      rw [published] at attended ⊢
      exact h.pass_other next rfl (.returning _ _) rfl rfl rfl rfl rfl rfl rfl attended
    | dismissing gone job =>
      rw [quiet rfl, pass_of_some next]
      exact h.pass_other next rfl (.returning _ _) rfl rfl rfl rfl rfl rfl rfl
        (.inr ⟨rfl, gone, h.attended.prefix⟩)
    | returning job result =>
      rw [quiet rfl, pass_of_some next]
      exact h.pass_other next rfl .done rfl rfl rfl rfl rfl rfl rfl
        (h.attended.of_said rfl rfl)
  · rw [same, none, Option.toList_none, List.append_nil]
    exact h

/-! ## The main task goes on -/

theorem Alone.goOn (h : Alone S validator e main committed w) {main' : MainTask}
    (gone : main.gone → main'.gone)
    (idle : main'.listens = false → w.session.playing = false) :
    Alone S validator e main' committed w := by
  refine ⟨h.checks, h.sole, ?_, ?_, h.gated, h.manned, ?_, ?_, idle⟩
  · intro job mem
    exact (h.queue job mem).imp_right (And.imp_right gone)
  · intro t mem
    cases h.threads t mem with
    | dismissing removed => exact .dismissing (gone removed) _
    | arriving => exact .arriving _
    | deciding => exact .deciding _ _ _
    | telling => exact .telling _ _
    | returning => exact .returning _ _
    | done => exact .done
  · exact h.attended.imp_right (And.imp_right (And.imp_left gone))
  · obtain ⟨k, engine, made⟩ := h.attempts
    exact ⟨k, engine.imp_right (And.imp_right gone), made⟩

theorem Alone.pause (h : Alone S validator e main committed w)
    (idle : w.session.playing = false) :
    Alone S validator e main committed { w with session := w.session.pause } := by
  have none := h.sole.ticks_of_idle idle
  have outside := w.session.outside_pause
  have hushed := w.session.hushed_pause
  obtain ⟨armed, others⟩ := List.append_eq_nil_iff.mp none
  obtain ⟨paused, still⟩ : w.session.pause.armed = [] ∧
      w.session.pause.subscribers = w.session.subscribers := by
    unfold Session.pause
    split
    · exact ⟨List.map_eq_nil_iff.mp armed, rfl⟩
    · simp [cancel, note, List.map_eq_nil_iff.mp armed]
  have stopped : w.session.pause.playing = false := by
    unfold Session.pause
    split <;> rfl
  refine ⟨outside.validator.trans h.checks, .inl ?_, hushed.queue ▸ h.queue, h.threads,
    outside.gated h.gated, outside.manned h.manned, h.attended.of_said still hushed.utterances,
    ?_, fun _ => stopped⟩
  · unfold ticks
    rw [paused, hushed.queue]
    exact others
  · obtain ⟨k, engine, made⟩ := h.attempts
    dsimp only
    rw [outside.engine]
    exact ⟨k, engine, made⟩

theorem Alone.leave (h : Alone S validator e main committed w) {main' : MainTask}
    (gone : main'.gone) (idle : w.session.playing = false) :
    Alone S validator e main' committed
      { w with session := w.session.enqueue (.order .destroy) } := by
  have left : w.Alone S validator e main' committed := h.goOn (fun _ => gone) fun _ => idle
  have outside := w.session.outside_enqueue (.order .destroy)
  refine ⟨left.checks, .inl ?_, ?_, left.threads, outside.gated left.gated,
    outside.manned left.manned, left.attended, left.attempts, left.idle⟩
  · have none := h.sole.ticks_of_idle idle
    simpa [ticks, enqueue, Job.tick?] using none
  · intro job mem
    rcases List.mem_append.mp mem with old | new
    · exact left.queue job old
    · rw [List.mem_singleton.mp new]
      exact .inr ⟨rfl, gone⟩

/-! ## What is told -/

theorem closing_eq {job : Job ε} {g : Nat} (kind : job.kind = .tick g) (snapshot : Snapshot) :
    (closing job snapshot).filterMap Section.told? =
      (closing job snapshot).filterMap Section.undecided? := by
  unfold closing
  rw [kind]
  rfl

theorem Alone.ahead_eq (h : Alone S validator e main committed w) {a : Session.Action ε}
    (ticks : a.IsTick) :
    (w.session.turn S a).ahead.filterMap Section.told? =
      (w.session.turn S a).ahead.filterMap Section.undecided? := by
  rcases ticks with ⟨handle, rfl⟩ | rfl | rfl
  · show (w.session.awaken handle).ahead.filterMap _ = (w.session.awaken handle).ahead.filterMap _
    unfold awaken
    split
    · rfl
    · dsimp only
      split <;> rfl
  · show (w.session.takeUp S).ahead.filterMap _ = (w.session.takeUp S).ahead.filterMap _
    unfold takeUp
    split
    · rfl
    · next job others head =>
      split
      · rfl
      · rcases h.queue job (head ▸ List.mem_cons_self) with ⟨g, kind⟩ | ⟨kind, -⟩
        · rw [kind]
          dsimp only
          unfold Session.beginStep
          split
          · exact closing_eq kind _
          · split
            · rfl
            · exact closing_eq kind _
        · rw [kind]
          rfl
  · show (w.session.takeLeave S).ahead.filterMap _ = (w.session.takeLeave S).ahead.filterMap _
    unfold takeLeave
    split
    · next job others e' head bound =>
      dsimp only
      split
      · next busy =>
        rcases h.queue job (head ▸ List.mem_cons_self) with ⟨g, kind⟩ | ⟨kind, -⟩
        · exact closing_eq kind _
        · obtain ⟨job', _, head', steps⟩ := h.manned busy
          obtain rfl := (List.cons.inj (head.symm.trans head')).1
          simp [Job.steps, kind] at steps
      · rfl
    · rfl

end Weave

end Cadence
