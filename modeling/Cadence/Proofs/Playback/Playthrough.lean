import Cadence.Proofs.Clock.Solo
import Cadence.Proofs.Engine.Trials
import Cadence.Proofs.Playback.Gate

/-!
# Playback from start to end

With one listener and nobody else around, playback is a loop over attempts to step, under whatever
scheduler: each attempt is told, and the first one that fails or reaches the limit is the last.

* `Session.Ticking.conclude_last`, `Session.Ticking.conclude_more`: how a tick ends;
* `Stage.collect_spec`: what a stage makes of the log of its session;
* `Stage.Rolling`, `Stage.Stopped`: a stage that waits for its next tick, and one that is stopped;
* **`Stage.Rolling.poll_eq`**: a tick is one attempt, and asks for the next tick or for none;
* `Stage.Under`, `Stage.Under.turn`: playback that has so much left to tell, and a turn of its loop;
* **`Stage.Under.listen`**: the main task receives until playback has stopped;
* `Stage.exists_bound`, `Stage.Bound.play`, `Stage.Stopped.destroy`: what the foreground does;
* **`Stage.autoplay_spec`**: what is told from start to end.
-/

namespace Cadence

variable {ε : Type}

namespace Session

variable {S : Stepper ε} {s : Session ε} {e : ε} {id n : Nat} {u : Subscriber}

theorem publish_plain (audience : s.subscribers = [u]) (plain : u.listener = .plain)
    (snapshot : Snapshot) :
    s.publish snapshot =
      { s with
        last := snapshot
        subscribers := [{ u with calls := u.calls + 1 }]
        log := .heard u.id u.name s.playing snapshot :: .broadcast snapshot :: s.log } := by
  simp [publish, audience, deliver, note, countCall, plain, Listener.plain, react]

/-- A session with one job, a current tick, and one listener that does nothing. -/
structure Ticking (n id : Nat) (u : Subscriber) (s : Session ε) : Prop where
  queue : s.queue = [⟨id, .tick n⟩]
  playing : s.playing = true
  generation : s.generation = n
  audience : s.subscribers = [u]
  plain : u.listener = .plain

theorem Ticking.commit_release (h : Ticking n id u s) (snapshot : Snapshot) :
    s.release.commit n snapshot =
      if Stepper.isLast s.limit snapshot then
        { s with queue := [], stepping := false, playing := false, pending := none }
      else ({ s with queue := [], stepping := false } : Session ε).arm := by
  have freed : s.release = { s with queue := [], stepping := false } := by
    simp [release, h.queue]
  have current : ({ s with queue := [], stepping := false } : Session ε).isCurrent n = true := by
    simp [isCurrent, h.playing, h.generation]
  rw [freed, commit, if_pos current]
  rfl

theorem Ticking.conclude_last (h : Ticking n id u s) {snapshot : Snapshot}
    (last : Stepper.isLast s.limit snapshot = true) :
    s.conclude ⟨id, .tick n⟩ snapshot =
      { s with
        queue := []
        stepping := false
        playing := false
        pending := none
        last := snapshot
        subscribers := [{ u with calls := u.calls + 1 }]
        log := .finished id (some snapshot) :: .heard u.id u.name false snapshot ::
          .broadcast snapshot :: s.log } := by
  show ((s.release.commit n snapshot).publish snapshot).note _ = _
  rw [h.commit_release, if_pos last, publish_plain ?_ h.plain]
  · rfl
  · exact h.audience

theorem Ticking.conclude_more (h : Ticking n id u s) {snapshot : Snapshot}
    (more : Stepper.isLast s.limit snapshot = false) :
    s.conclude ⟨id, .tick n⟩ snapshot =
      { s with
        queue := []
        stepping := false
        generation := n + 1
        nextHandle := s.nextHandle + 1
        armed := s.armed ++ [⟨s.nextHandle, n + 1⟩]
        pending := some s.nextHandle
        last := snapshot
        subscribers := [{ u with calls := u.calls + 1 }]
        log := .finished id (some snapshot) :: .heard u.id u.name true snapshot ::
          .broadcast snapshot :: .armed ⟨s.nextHandle, n + 1⟩ s.interval :: s.log } := by
  show ((s.release.commit n snapshot).publish snapshot).note _ = _
  rw [h.commit_release, if_neg (Bool.eq_false_iff.mp more), publish_plain ?_ h.plain]
  · simp [arm, note, h.playing, h.generation]
  · exact h.audience

end Session

namespace Stage

variable {S : Stepper ε} {validator : Option (Record → List FieldError)} {limit : Option Nat}
  {n : Nat} {e : ε} {t : Stage ε}

/-! ## What is collected -/

theorem record_spec (now : Nat) (t : Stage ε) (event : SessionEvent ε) :
    (record now t event).session = t.session ∧ (record now t event).operations = t.operations ∧
      (record now t event).heard = t.heard ++ event.heard?.toList ∧
      (record now t event).jobs = t.jobs.filter fun j => some j.2 ≠ event.finished? := by
  cases event with
  | heard => simp [record, heard, SessionEvent.heard?, SessionEvent.finished?]
  | finished job result =>
    dsimp only [record]
    split <;> simp [heard, SessionEvent.heard?, SessionEvent.finished?]
  | armed | cancelled | granted | stepping | shutDown | broadcast =>
    simp [record, heard, SessionEvent.heard?, SessionEvent.finished?]

/-- **Collecting** takes the log away, and tells what listeners have heard. -/
theorem collect_spec (now : Nat) (t : Stage ε) :
    (collect now t).1.session = { t.session with log := [] } ∧
      (collect now t).1.operations = t.operations ∧
      (collect now t).1.heard = t.heard ++ t.session.log.reverse.filterMap SessionEvent.heard? ∧
      (collect now t).1.jobs =
        t.jobs.filter fun j => j.2 ∉ t.session.log.reverse.filterMap SessionEvent.finished? := by
  have folded : ∀ (events : List (SessionEvent ε)) (t : Stage ε),
      (events.foldl (record now) t).session = t.session ∧
        (events.foldl (record now) t).operations = t.operations ∧
        (events.foldl (record now) t).heard = t.heard ++ events.filterMap SessionEvent.heard? ∧
        (events.foldl (record now) t).jobs =
          t.jobs.filter fun j => j.2 ∉ events.filterMap SessionEvent.finished? := by
    intro events
    induction events with
    | nil => simp
    | cons event events ih =>
      intro t
      obtain ⟨session, operations, heard, jobs⟩ := record_spec now t event
      obtain ⟨session', operations', heard', jobs'⟩ := ih (record now t event)
      rw [List.foldl_cons, session', operations', heard', jobs', session, operations, heard, jobs]
      refine ⟨rfl, rfl, ?_, ?_⟩
      · cases told : event.heard? <;> simp [told]
      · cases finished : event.finished?
          <;> simp [finished, List.filter_filter, Bool.and_comm, eq_comm]
  exact folded _ _

theorem perform_silent (S : Stepper ε) (now : Nat) {a : Session.Action ε}
    (silent : (t.session.act S a).log = []) :
    t.perform S now a = ({ t with session := t.session.act S a }, []) := by
  have same : ({ t.session.act S a with log := [] } : Session ε) = t.session.act S a := by
    rw [← silent]
  unfold perform collect
  simp only [silent, same]
  rfl

/-! ## A stage for playback -/

/-- Nothing is under way on a stage with an engine and one listener, which does nothing. -/
structure Calm (validator : Option (Record → List FieldError)) (e : ε) (t : Stage ε) : Prop where
  jobs : t.jobs = []
  operations : t.operations = []
  engine : t.session.engine = some e
  queue : t.session.queue = []
  free : t.session.stepping = false
  validator : t.session.validator = validator
  audience : ∃ u, t.session.subscribers = [u] ∧ u.listener = .plain
  log : t.session.log = []

/-- The stage plays, and the tick `n` is armed. -/
structure Rolling (validator : Option (Record → List FieldError)) (limit : Option Nat) (n : Nat)
    (e : ε) (t : Stage ε) : Prop extends Calm validator e t where
  playing : t.session.playing = true
  limit : t.session.limit = limit
  generation : t.session.generation = n
  armed : t.session.armed = [⟨n, n⟩]
  next : t.session.nextHandle = n + 1

/-- The stage does not play. -/
structure Stopped (validator : Option (Record → List FieldError)) (e : ε) (t : Stage ε) : Prop
    extends Calm validator e t where
  playing : t.session.playing = false
  pending : t.session.pending = none

/-- An engine is bound, which has been told, and nothing was played yet. -/
structure Bound (S : Stepper ε) (validator : Option (Record → List FieldError)) (e : ε)
    (t : Stage ε) : Prop extends Stopped validator e t where
  heard : t.heard = [S.snapshot e]
  last : t.session.last = S.snapshot e
  armed : t.session.armed = []
  generation : t.session.generation = 0
  next : t.session.nextHandle = 1

/-- A tick is under way, and nothing else. -/
structure Ticking (validator : Option (Record → List FieldError)) (limit : Option Nat) (n : Nat)
    (e : ε) (id : Nat) (u : Subscriber) (t : Stage ε) : Prop
    extends Session.Ticking n id u t.session where
  jobs : t.jobs = [(.scheduled n, id)]
  operations : t.operations = []
  engine : t.session.engine = some e
  validator : t.session.validator = validator
  log : t.session.log = []
  limit : t.session.limit = limit
  armed : t.session.armed = []
  next : t.session.nextHandle = n + 1

/-- After how long the next tick is asked for when a tick has told a snapshot. -/
def following (limit : Option Nat) (interval : Nat) (told : Snapshot) : Option Nat :=
  if Stepper.isLast limit told then none else some interval

/-- A tick has left its engine and its snapshot, and playback is over or goes on. -/
structure Ticked (validator : Option (Record → List FieldError)) (limit : Option Nat) (n : Nat)
    (before : List Snapshot) (attempt : ε × Snapshot) (t : Stage ε) : Prop where
  heard : t.heard = before ++ [attempt.2]
  last : t.session.last = attempt.2
  goes : if Stepper.isLast limit attempt.2 then Stopped validator attempt.1 t
    else Rolling validator limit (n + 1) attempt.1 t

theorem Ticking.collect_conclude {id : Nat} {u : Subscriber}
    (h : Ticking validator limit n e id u t) (now : Nat) (told : Snapshot) :
    ∃ t', collect now { t with session := t.session.conclude ⟨id, .tick n⟩ told } =
        (t', Loop.asked (following limit t.session.interval told)) ∧
      Ticked validator limit n t.heard (e, told) t' := by
  unfold following
  obtain ⟨session, operations, heard, jobs⟩ :=
    collect_spec now { t with session := t.session.conclude ⟨id, .tick n⟩ told }
  cases last : Stepper.isLast limit told with
  | true =>
    rw [h.conclude_last (h.limit ▸ last)] at *
    refine ⟨_, Prod.ext rfl ?_, heard.trans ?_, ?_, ?_⟩
    · simp [collect, requests, h.log, Loop.asked]
    · simp [h.log, SessionEvent.heard?]
      rfl
    · rw [session]
    · rw [if_pos last]
      refine ⟨⟨?_, operations.trans h.operations, ?_, ?_, ?_, ?_, ?_, ?_⟩, ?_, ?_⟩
      · rw [jobs]
        simp [h.jobs, h.log, SessionEvent.finished?]
      all_goals rw [session]
      · exact h.engine
      · exact h.validator
      · exact ⟨_, rfl, h.plain⟩
  | false =>
    rw [h.conclude_more (h.limit ▸ last)] at *
    refine ⟨_, Prod.ext rfl ?_, heard.trans ?_, ?_, ?_⟩
    · simp [collect, requests, h.log, Loop.asked]
    · simp [h.log, SessionEvent.heard?]
      rfl
    · rw [session]
    · rw [if_neg (Bool.eq_false_iff.mp last)]
      refine ⟨⟨?_, operations.trans h.operations, ?_, ?_, ?_, ?_, ?_, ?_⟩, ?_, ?_, ?_, ?_, ?_⟩
      · rw [jobs]
        simp [h.jobs, h.log, SessionEvent.finished?]
      all_goals rw [session]
      · exact h.engine
      · exact h.validator
      · exact ⟨_, rfl, h.plain⟩
      · exact h.playing
      · exact h.limit
      · simp [h.armed, h.next]
      · simp [h.next]

theorem Ticked.free {before : List Snapshot} {attempt : ε × Snapshot}
    (h : Ticked validator limit n before attempt t) : t.session.stepping = false := by
  have goes := h.goes
  split at goes
  · exact goes.free
  · exact goes.free

theorem Ticking.beginJob_eq {id : Nat} {u : Subscriber} (h : Ticking validator limit n e id u t)
    (free : t.session.stepping = false) (S : Stepper ε) (now : Nat) :
    ∃ t', t.beginJob S (fun _ => 0) now =
        (t', Loop.asked (following limit t.session.interval (S.attempt validator e).2), .done) ∧
      Ticked validator limit n t.heard (S.attempt validator e) t' := by
  have objections : t.session.objections (S.snapshot e).input =
      Stepper.objections validator (S.snapshot e).input := by
    rw [← h.validator]
    rfl
  have begun : t.session.begin S = (t.session.beginStep S ⟨id, .tick n⟩).through :=
    Session.begin_eq_beginStep S h.queue free rfl
  cases passes : Stepper.objections validator (S.snapshot e).input with
  -- the step takes no time, so that the poll that begins it also completes it
  | nil =>
    rw [Stepper.attempt_of_passes passes]
    let t₁ : Stage ε := { t with session := { t.session with stepping := true, log := [] } }
    let t₂ : Stage ε :=
      { t₁ with session := { t₁.session with engine := some (S.step e) } }
    have ticking : Ticking validator limit n (S.step e) id u t₂ :=
      { h with engine := rfl, log := rfl }
    have entered : t.perform S now .begin = (t₁, []) := by
      have acted : t.session.act S .begin =
          { t.session with stepping := true, log := [.stepping ⟨id, .tick n⟩ e] } := by
        show t.session.begin S = _
        rw [begun, Session.beginStep, h.engine]
        dsimp only
        rw [objections, passes]
        simp [Session.note, h.log, h.engine, Session.Turn.through]
      unfold perform
      rw [acted]
      rfl
    have acted : t₁.session.act S .complete =
        t₂.session.conclude ⟨id, .tick n⟩ (S.snapshot (S.step e)) := by
      simp [Session.act, Session.turn, Session.takeLeave, t₁, t₂, h.queue, h.engine]
    obtain ⟨t', collected, ticked⟩ := ticking.collect_conclude now (S.snapshot (S.step e))
    have performed : t₁.perform S now .complete =
        (t', Loop.asked (following limit t.session.interval (S.snapshot (S.step e)))) := by
      unfold perform
      rw [acted]
      exact collected
    have completed : t₁.completeJob S now =
        (t', Loop.asked (following limit t.session.interval (S.snapshot (S.step e))), .done) := by
      unfold completeJob
      rw [performed]
    refine ⟨t', ?_, ticked⟩
    unfold beginJob
    rw [entered]
    dsimp only
    rw [if_pos rfl, show t₁.session.engine = some e from h.engine]
    dsimp only [Option.map_some, Option.getD_some]
    rw [completed]
    rfl
  | cons first others =>
    rw [Stepper.attempt_of_refused passes]
    let told := (S.snapshot e).withError (validationMessage (first :: others))
    have ended : t.session.begin S = t.session.conclude ⟨id, .tick n⟩ told := by
      rw [begun, Session.beginStep, h.engine]
      dsimp only
      rw [objections, passes]
      rfl
    obtain ⟨t', collected, ticked⟩ := h.collect_conclude now told
    have performed : t.perform S now .begin =
        (t', Loop.asked (following limit t.session.interval told)) := by
      unfold perform
      rw [← collected, ← ended]
      rfl
    refine ⟨t', ?_, ticked⟩
    unfold beginJob
    rw [performed]
    dsimp only
    rw [if_neg (Bool.eq_false_iff.mp ticked.free)]

/-- **A tick makes an attempt.** -/
theorem Rolling.poll_eq (h : Rolling validator limit n e t) (S : Stepper ε) (now : Nat) :
    ∃ t', poll S (fun _ => 0) now t (.scheduled n) =
        (t', Loop.asked (following limit t.session.interval (S.attempt validator e).2), .done) ∧
      Ticked validator limit n t.heard (S.attempt validator e) t' := by
  obtain ⟨u, audience, plain⟩ := h.audience
  have fired : t.session.fire n = { t.session with
      armed := []
      queue := [⟨t.session.nextJob, .tick n⟩]
      nextJob := t.session.nextJob + 1 } := by
    simp [Session.fire_eq, h.armed, h.queue, Session.isCurrent, h.playing, h.generation,
      Session.enqueue]
  let t₁ : Stage ε := { t with
    session := t.session.fire n
    jobs := [(.scheduled n, t.session.nextJob)] }
  have ticking : Ticking validator limit n e t.session.nextJob u t₁ := by
    refine ⟨⟨?_, ?_, ?_, ?_, plain⟩, rfl, h.operations, ?_, ?_, ?_, ?_, ?_, ?_⟩
    all_goals dsimp only [t₁]; rw [fired]
    · exact h.playing
    · exact h.generation
    · exact audience
    · exact h.engine
    · exact h.validator
    · exact h.log
    · exact h.limit
    · exact h.next
  have free : t₁.session.stepping = false := by
    show (t.session.fire n).stepping = false
    rw [fired]
    exact h.free
  have performed : t.perform S now (.fire n) = ({ t with session := t.session.fire n }, []) :=
    perform_silent S now ticking.log
  have polled : poll S (fun _ => 0) now t (.scheduled n) = t₁.beginJob S (fun _ => 0) now := by
    have none : t.jobOf (.scheduled n) = none := by simp [jobOf, h.jobs]
    have nextJob : (t.session.fire n).nextJob ≠ t.session.nextJob := by simp [fired]
    have goes : t₁.goOn S (fun _ => 0) now t.session.nextJob = t₁.beginJob S (fun _ => 0) now := by
      unfold goOn
      rw [ticking.queue]
      dsimp only
      rw [if_neg (not_not.mpr rfl), if_neg (Bool.eq_false_iff.mp free)]
    unfold poll
    rw [none]
    dsimp only
    unfold join
    rw [performed]
    dsimp only
    rw [if_neg nextJob, h.jobs, List.nil_append, goes]
    rfl
  obtain ⟨t', began, ticked⟩ := ticking.beginJob_eq free S now
  have interval : t₁.session.interval = t.session.interval := by
    show (t.session.fire n).interval = _
    rw [fired]
  rw [interval] at began
  exact ⟨t', polled.trans began, ticked⟩

/-! ## Turns of the loop -/

/-- Playback will have told these snapshots when it is over, which takes at most `m` turns. So many
of them have been received. -/
inductive Under (S : Stepper ε) (validator : Option (Record → List FieldError))
    (limit : Option Nat) (all : List Snapshot) (received m : Nat) (l : Loop (Stage ε)) : Prop
  | rolling {n k : Nat} {e : ε} {t : Stage ε} {told : List Snapshot}
      (lone : Loop.Lone n t k l) (stage : Rolling validator limit n e t)
      (plays : S.Plays validator limit e told) (total : t.heard ++ told = all)
      (known : received ≤ t.heard.length) (left : 3 * told.length + k ≤ m)
  | stopped {n : Nat} {e : ε} {t : Stage ε} (bare : Loop.Bare n t l)
      (stage : Stopped validator e t) (heard : t.heard = all)
      (last : all.getLast? = some t.session.last)

variable {all : List Snapshot} {received m m' : Nat} {l : Loop (Stage ε)}

theorem Under.mono (h : Under S validator limit all received m l) (le : m ≤ m') :
    Under S validator limit all received m' l := by
  cases h with
  | rolling lone stage plays total known left =>
    exact .rolling lone stage plays total known (Nat.le_trans left le)
  | stopped bare stage heard last => exact .stopped bare stage heard last

/-- **A turn** takes playback on, unless it is over. -/
theorem Under.turn (h : Under S validator limit all received m l) :
    Under S validator limit all received (m - 1) (l.turn (program S fun _ => 0)) := by
  cases h with
  | stopped bare stage heard last => exact .stopped (bare.turn _) stage heard last
  | @rolling n k e t told lone stage plays total known left =>
    -- a snapshot stands for three turns: that of its tick, and two that bring the next one near
    rcases lone.turn (P := program S fun _ => 0) with ⟨k', nearer, lone⟩ | ran
    · exact .rolling lone stage plays total known (by omega)
    · obtain ⟨t', polled, heard, last, goes⟩ := stage.poll_eq S l.now
      have leaves := ran polled
      unfold following at leaves
      cases plays with
      | last done =>
        rw [if_pos done] at leaves goes
        refine .stopped leaves goes (heard.trans total) ?_
        rw [← total, last]
        simp
      | @more _ told more rest =>
        rw [if_neg (Bool.eq_false_iff.mp more)] at leaves goes
        refine .rolling leaves goes rest ?_ ?_ ?_
        · rw [heard, List.append_assoc]
          exact total
        · rw [heard, List.length_append]
          exact Nat.le_add_right_of_le known
        · rw [List.length_cons] at left
          omega

theorem isIdle_of_lone {n k : Nat} (lone : Loop.Lone n t k l) (jobs : t.jobs = []) :
    isIdle l = true := by
  simp [isIdle, lone.summoned_eq, lone.program_eq, jobOf, jobs]

theorem isIdle_of_bare {n : Nat} (bare : Loop.Bare n t l) (jobs : t.jobs = []) :
    isIdle l = true := by
  simp [isIdle, bare.summoned_eq, bare.program_eq, jobOf, jobs]

/-- The foreground waits for nothing, whatever turns are taken in between. -/
theorem Under.await (h : Under S validator limit all received m l) :
    Under S validator limit all received m (l.await (program S fun _ => 0) isIdle) := by
  refine Loop.await_keeps (fun l under => under.turn.mono (Nat.sub_le m 1)) ?_ h
  intro l under
  cases under with
  | rolling lone stage => exact isIdle_of_lone lone stage.jobs
  | stopped bare stage => exact isIdle_of_bare bare stage.jobs

/-! ## The receive loop -/

theorem plays_length_pos {told : List Snapshot}
    (plays : S.Plays validator limit e told) : 0 < told.length := by
  cases plays <;> exact Nat.succ_pos _

theorem Under.lt_of_playing (h : Under S validator limit all received m l)
    (playing : l.program.session.playing = true) :
    received ≤ l.program.heard.length ∧ l.program.heard.length < all.length ∧ 0 < m ∧
      l.program.session.subscribers.isEmpty = false := by
  cases h with
  | stopped bare stage =>
    rw [bare.program_eq, stage.playing] at playing
    cases playing
  | rolling lone stage plays total known left =>
    obtain ⟨u, audience, -⟩ := stage.audience
    have more := plays_length_pos plays
    have lengths := congrArg List.length total
    rw [List.length_append] at lengths
    rw [lone.program_eq, audience]
    exact ⟨known, by omega, by omega, rfl⟩

theorem Under.heard_of_stopped (h : Under S validator limit all received m l)
    (idle : l.program.session.playing = false) : l.program.heard = all := by
  cases h with
  | stopped bare stage heard => rw [bare.program_eq, heard]
  | rolling lone stage =>
    rw [lone.program_eq, stage.playing] at idle
    cases idle

theorem Under.receive {n : Nat} (h : Under S validator limit all received m l)
    (lt : n ≤ l.program.heard.length) : Under S validator limit all n m l := by
  cases h with
  | stopped bare stage heard last => exact .stopped bare stage heard last
  | rolling lone stage plays total known left =>
    rw [lone.program_eq] at lt
    exact .rolling lone stage plays total lt left

/-- **The receive loop** is left when playback is over, and not before. A loop that waits has not
received everything; one that is woken looks whether playback goes on. -/
theorem Under.listen {times : Nat} (h : Under S validator limit all received m l) :
    (received < all.length → m + 2 * (all.length - received) ≤ times →
      Under S validator limit all 0 0
        (listen (program S fun _ => 0) times (.waiting received) l)) ∧
    (m + 2 * (all.length - received) < times →
      Under S validator limit all 0 0
        (listen (program S fun _ => 0) times (.woken received) l)) := by
  induction times generalizing received m l with
  | zero => exact ⟨fun lt enough => by omega, fun enough => by omega⟩
  | succ times ih =>
    refine ⟨fun lt enough => ?_, fun enough => ?_⟩
    · unfold Stage.listen
      dsimp only
      by_cases message : received < l.program.heard.length
      · have found : l.program.sent[received]? = some l.program.heard[received].stepCount := by
          simp [sent, message]
        simp only [Receiver.step, found]
        rw [if_neg nofun]
        exact (ih (h.receive message)).2 (by omega)
      · have none : l.program.sent[received]? = none := by
          simpa [sent] using Nat.le_of_not_lt message
        have playing : l.program.session.playing = true := by
          by_contra idle
          rw [h.heard_of_stopped (Bool.not_eq_true _ ▸ idle)] at message
          exact message lt
        obtain ⟨-, -, left, listened⟩ := h.lt_of_playing playing
        simp only [Receiver.step, none, listened, Bool.false_eq_true, if_false, if_true]
        exact (ih h.turn).1 lt (by omega)
    · unfold Stage.listen
      dsimp only
      cases playing : l.program.session.playing with
      | true =>
        obtain ⟨known, more, -, -⟩ := h.lt_of_playing playing
        simp only [Receiver.step, if_true]
        rw [if_neg nofun]
        exact (ih h).1 (by omega) (by omega)
      | false =>
        simp only [Receiver.step, Bool.false_eq_true, if_false]
        cases h with
        | stopped bare stage heard last => exact .stopped bare stage heard last
        | rolling lone stage =>
          rw [lone.program_eq, stage.playing] at playing
          cases playing

/-! ## Operations of the foreground -/

/-- The stage with an operation for the foreground. -/
def handed (t : Stage ε) (o : Operation ε) : Stage ε :=
  { t with operations := t.operations ++ [(.foreground, o)], result := none }

theorem exists_start_eq {n : Nat} (bare : Loop.Bare n t l) (S : Stepper ε) {o : Operation ε}
    {t' : Stage ε} (next : Option Nat)
    (polled : poll S (fun _ => 0) l.now (t.handed o) .foreground = (t', Loop.asked next, .done)) :
    ∃ l', Loop.Leaves n t' l' next ∧
      start S (fun _ => 0) l o = l'.await (program S fun _ => 0) isIdle := by
  refine ⟨_, (bare.replace (t.handed o)).foreground (P := program S fun _ => 0) polled, ?_⟩
  unfold start
  rw [bare.program_eq]
  rfl

theorem start_bare {n : Nat} (bare : Loop.Bare n t l) (S : Stepper ε) {o : Operation ε}
    {t' : Stage ε}
    (polled : poll S (fun _ => 0) l.now (t.handed o) .foreground = (t', [], .done))
    (jobs : t'.jobs = []) : Loop.Bare n t' (start S (fun _ => 0) l o) := by
  obtain ⟨l', leaves, started⟩ := exists_start_eq bare S none polled
  rw [started]
  exact Loop.await_keeps (fun _ bare => bare.turn _) (fun _ bare => isIdle_of_bare bare jobs) leaves

theorem exists_bound (S : Stepper ε) (kind : SchedulerKind) (frameRate : Nat)
    (validator : Option (Record → List FieldError)) (e : ε) :
    ∃ t, Bound S validator e t ∧
      Loop.Bare 1 t
        (start S (fun _ => 0)
          (start S (fun _ => 0)
            (Loop.create (kind.scheduler frameRate) { session := { validator } })
            (.act (.subscribe "listener" .plain)))
          (.order (.init e none))) := by
  let listening : Stage ε :=
    { session :=
        { validator, subscribers := [⟨1, "listener", .plain, 0⟩], names := [("listener", 1)],
          nextSubscriber := 2 } }
  have created := Loop.bare_create kind frameRate ({ session := { validator } } : Stage ε)
  have subscribed : Loop.Bare 1 listening _ :=
    start_bare created S (o := .act (.subscribe "listener" .plain)) rfl rfl
  generalize start S (fun _ => 0) _ (.act (.subscribe "listener" .plain)) = l at subscribed
  let bound : Stage ε :=
    { session :=
        { listening.session with
          engine := some e, last := S.snapshot e, nextJob := 1,
          subscribers := [⟨1, "listener", .plain, 1⟩] }
      report := [.heard l.now "listener" false (S.snapshot e)] }
  have bare : Loop.Bare 1 bound _ :=
    start_bare subscribed S (o := .order (.init e none)) rfl rfl
  have stopped : Stopped validator e bound :=
    ⟨⟨rfl, rfl, rfl, rfl, rfl, rfl, ⟨_, rfl, rfl⟩, rfl⟩, rfl, rfl⟩
  exact ⟨bound, ⟨stopped, rfl, rfl, rfl, rfl, rfl⟩, bare⟩

theorem Bound.play (h : Bound S validator e t) (bare : Loop.Bare 1 t l) (interval : Nat)
    {told : List Snapshot} (plays : S.PlaysOut validator limit e told) :
    Under S validator limit (S.snapshot e :: told) 0 (3 * told.length + 2)
      (start S (fun _ => 0) l (.act (.play interval limit))) := by
  let t₁ : Stage ε := { t with result := none }
  have polled : poll S (fun _ => 0) l.now (t.handed (.act (.play interval limit))) .foreground =
      let done := t₁.perform S l.now (.play interval limit)
      (done.1, done.2, .done) := by
    simp [poll, handed, jobOf, h.jobs, h.operations, t₁]
  unfold Stepper.PlaysOut at plays
  rw [← h.last] at plays
  split at plays
  · next reached =>
    have unmoved : t₁.session.act S (.play interval limit) = t.session := by
      show t.session.playLimited interval limit = _
      rw [Session.playLimited, if_pos]
      rw [reached, Bool.or_true]
    have performed : t₁.perform S l.now (.play interval limit) = (t₁, []) := by
      rw [perform_silent S l.now (by rw [unmoved]; exact h.log), unmoved]
    rw [performed] at polled
    refine .stopped (start_bare bare S polled h.jobs) { h.toStopped with } ?_ ?_
    · rw [plays, ← h.heard]
      rfl
    · rw [plays, ← h.last]
      rfl
  · next below =>
    let t₂ : Stage ε := { t₁ with
      session := { t.session with
        playing := true, interval, limit, generation := 1, nextHandle := 2,
        armed := [⟨1, 1⟩], pending := some 1, log := [] } }
    have moved : t₁.session.act S (.play interval limit) =
        { t₂.session with log := [.armed ⟨1, 1⟩ interval] } := by
      show t.session.playLimited interval limit = _
      rw [Session.playLimited, if_neg]
      · simp [Session.arm, Session.note, h.log, h.armed, h.generation, h.next, t₂]
      · simp [h.playing, below]
    have performed : t₁.perform S l.now (.play interval limit) = (t₂, [.schedule interval]) := by
      unfold perform
      rw [moved]
      rfl
    rw [performed] at polled
    obtain ⟨l₂, lone, started⟩ := exists_start_eq bare S (some interval) polled
    have rolling : Rolling validator limit 1 e t₂ :=
      ⟨{ h.toCalm with log := rfl }, rfl, rfl, rfl, rfl, rfl⟩
    have under : Under S validator limit (S.snapshot e :: told) 0 (3 * told.length + 2) l₂ := by
      refine .rolling lone rolling plays ?_ (Nat.zero_le _) (Nat.le_refl _)
      show t.heard ++ told = _
      rw [h.heard]
      rfl
    rw [started]
    exact under.await

/-- The engine is removed, which tells nothing. -/
theorem Stopped.destroy {n : Nat} (h : Stopped validator e t) (bare : Loop.Bare n t l)
    (S : Stepper ε) :
    ∃ t', Loop.Bare n t' (start S (fun _ => 0) l (.order .destroy)) ∧ t'.heard = t.heard := by
  let gone : Session ε := { t.session with
    playing := false, engine := none, queue := [], stepping := false, log := [],
    subscribers := [], nextJob := t.session.nextJob + 1 }
  let t' : Stage ε := { t with
    session := gone, jobs := [], operations := [], result := none,
    report := t.report ++ [.shutDown (S.shutdown e)] }
  have polled : poll S (fun _ => 0) l.now (t.handed (.order .destroy)) .foreground =
      (t', [], .done) := by
    simp [poll, handed, jobOf, h.jobs, h.operations, join, perform, collect, record, requests, goOn,
      beginJob, Session.act, Session.turn, Session.Turn.through, Session.approach, Session.pass,
      Session.pause, h.pending, Session.enqueue, h.queue, h.log, h.free, Session.takeUp,
      Session.runDestroy, Session.shutEngine, h.engine, Session.release, Session.dismiss,
      Session.note, t', gone]
  refine ⟨t', start_bare bare S polled rfl, ?_⟩
  simp [heard, t']

/-- **Playback from start to end** tells the snapshot of the engine and then one for each attempt,
and ends with the last of them, under either scheduler and whatever the interval. -/
theorem autoplay_spec (S : Stepper ε) (kind : SchedulerKind) (frameRate : Nat)
    (validator : Option (Record → List FieldError)) (interval : Nat) (limit : Option Nat) (e : ε)
    {told : List Snapshot} (plays : S.PlaysOut validator limit e told)
    (few : told.length ≤ limit.getD Word.count) :
    let (t, last) := autoplay S (kind.scheduler frameRate) validator interval limit e
    t.heard = S.snapshot e :: told ∧ t.heard.getLast? = some last := by
  obtain ⟨t, bound, bare⟩ := exists_bound S kind frameRate validator e
  unfold autoplay
  dsimp only
  generalize start S (fun _ => 0) _ (.order (.init e none)) = l at bare
  have ends {l' : Loop (Stage ε)} (under : Under S validator limit (S.snapshot e :: told) 0 0 l') :
      (start S (fun _ => 0) l' (.order .destroy)).program.heard = S.snapshot e :: told ∧
        (S.snapshot e :: told).getLast? = some l'.program.session.last := by
    cases under with
    | rolling _ _ plays _ _ left =>
      have := plays_length_pos plays
      omega
    | stopped bare stage heard last =>
      obtain ⟨t', removed, same⟩ := stage.destroy bare S
      rw [removed.program_eq, same, heard, bare.program_eq]
      exact ⟨rfl, last⟩
  have played : Under S validator limit (S.snapshot e :: told) 0 0
      (if limit = some 0 then l
      else listen (program S fun _ => 0) (timesFor limit) (.waiting 0)
        (start S (fun _ => 0) l (.act (.play interval limit)))) := by
    split
    · next zero =>
      unfold Stepper.PlaysOut at plays
      rw [zero, if_pos (by simp [Session.atLimit])] at plays
      rw [plays]
      exact .stopped bare bound.toStopped bound.heard (congrArg some bound.last.symm)
    · have under := bound.play bare interval plays
      refine under.listen.1 (Nat.succ_pos _) ?_
      rw [List.length_cons]
      unfold timesFor
      omega
  obtain ⟨heard, last⟩ := ends played
  exact ⟨heard, heard ▸ last⟩

end Stage

end Cadence
