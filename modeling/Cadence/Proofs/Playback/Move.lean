import Cadence.Playback.Session
import Mathlib.Logic.Relation

/-!
# Moves of a session

An action of a session changes much at once: a job that ends releases the engine, decides about
playback, and calls listeners that act on playback in turn. Moves are the parts of actions between
which a session may be looked at. What every move keeps, every run keeps.

* `Session.announce`, `Session.notify`: the two halves of a broadcast;
* `Session.leave`: a job ends with a snapshot, up to the calls of listeners;
* `Session.Move`: all moves, each with the condition under which it is made;
* **`Session.moves_act`**, **`Session.moves_run`**: actions and runs are chains of moves;
* `Session.Moves.keeps`, `Session.keeps_run`: invariants of moves are invariants of runs;
* `Session.begin_stepping`: when a step of the engine begins.
-/

namespace Cadence

variable {ε : Type}

/-- The job steps the engine. -/
def Job.steps (j : Job ε) : Bool :=
  match j.kind with
  | .tick _ | .order .step => true
  | .order _ => false

namespace Session

/-- Keep a snapshot as the last one and write down its broadcast. Nobody has been called yet. -/
def announce (s : Session ε) (snapshot : Snapshot) : Session ε :=
  { s with last := snapshot }.note (.broadcast snapshot)

/-- Call everyone who is registered now. -/
def notify (s : Session ε) (snapshot : Snapshot) : Session ε :=
  s.subscribers.foldl (deliver snapshot) s

/-- A job that was to step the engine gives it up, and a tick decides about playback. -/
def settle (s : Session ε) (job : Job ε) (snapshot : Snapshot) : Session ε :=
  match job.kind with
  | .tick generation => s.release.commit generation snapshot
  | .order _ => s.release

/-- A job that was to step the engine ends with a snapshot. Nobody has been called yet. -/
def leave (s : Session ε) (job : Job ε) (snapshot : Snapshot) : Session ε :=
  (s.settle job snapshot).announce snapshot

theorem conclude_eq (s : Session ε) (job : Job ε) (snapshot : Snapshot) :
    s.conclude job snapshot =
      ((s.leave job snapshot).notify snapshot).note (.finished job.id (some snapshot)) := by
  unfold conclude quit closing leave settle
  cases job.kind <;> rfl

@[simp] theorem through_quit (s : Session ε) (job : Job ε) (snapshot : Snapshot) :
    (s.quit job snapshot).through = s.conclude job snapshot := rfl

/-- The scheduler hands out a tick, which joins the queue if it may act. -/
def start (s : Session ε) (tick : Tick) : Session ε :=
  let s := { s with armed := s.armed.filter (·.handle ≠ tick.handle) }
  if s.isCurrent tick.generation then s.enqueue (.tick tick.generation) else s

/-- The head of the queue is gone, and a job behind it is told so. -/
theorem exists_release_eq (s : Session ε) :
    ∃ log, (log = s.log ∨ ∃ job, log = .granted job :: s.log) ∧
      s.release = { s with queue := s.queue.tail, stepping := false, log } := by
  unfold release
  dsimp only
  split
  · exact ⟨s.log, .inl rfl, rfl⟩
  · next job _ _ => exact ⟨.granted job.id :: s.log, .inr ⟨_, rfl⟩, rfl⟩

/-! ## Moves -/

/-- The parts of actions. The first six are made by callers and listeners, the others by jobs. -/
inductive Move (S : Stepper ε) : Session ε → Session ε → Prop
  | paused (s : Session ε) : Move S s s.pause
  | played (s : Session ε) (interval : Nat) (limit : Option Nat) :
      Move S s (s.playLimited interval limit)
  | paced {s : Session ε} (interval : Nat) (idle : s.playing = false) :
      Move S s { s with interval }
  | subscribed (s : Session ε) (name : String) (listener : Listener) :
      Move S s (s.subscribe name listener)
  | unsubscribed (s : Session ε) (name : String) : Move S s (s.unsubscribe name)
  | called (s : Session ε) (u : Subscriber) (snapshot : Snapshot) :
      Move S s ((s.note (.heard u.id u.name s.playing snapshot)).countCall u.id)
  | ordered (s : Session ε) (order : Order ε) : Move S s (s.enqueue (.order order))
  | started {s : Session ε} {tick : Tick} (armed : tick ∈ s.armed) : Move S s (s.start tick)
  | begun {s : Session ε} {job : Job ε} {rest : List (Job ε)} {e : ε}
      (head : s.queue = job :: rest) (free : s.stepping = false) (steps : job.steps = true)
      (engine : s.engine = some e) (valid : s.objections (S.snapshot e).input = []) :
      Move S s ({ s with stepping := true }.note (.stepping job e))
  | unbound {s : Session ε} {job : Job ε} {rest : List (Job ε)}
      (head : s.queue = job :: rest) (free : s.stepping = false) (steps : job.steps = true)
      (engine : s.engine = none) :
      Move S s (s.leave job (s.last.withError "engine not initialized"))
  | rejected {s : Session ε} {job : Job ε} {rest : List (Job ε)} {e : ε}
      (head : s.queue = job :: rest) (free : s.stepping = false) (steps : job.steps = true)
      (engine : s.engine = some e) (invalid : s.objections (S.snapshot e).input ≠ []) :
      Move S s (s.leave job
        ((S.snapshot e).withError (validationMessage (s.objections (S.snapshot e).input))))
  | completed {s : Session ε} {job : Job ε} {rest : List (Job ε)} {e : ε}
      (head : s.queue = job :: rest) (busy : s.stepping = true) (engine : s.engine = some e) :
      Move S s ({ s with engine := some (S.step e) }.leave job (S.snapshot (S.step e)))
  | ignored {s : Session ε} {job : Job ε} {rest : List (Job ε)} {input : Record}
      (head : s.queue = job :: rest) (free : s.stepping = false)
      (kind : job.kind = .order (.setInput input)) (engine : s.engine = none) :
      Move S s s.release
  | replaced {s : Session ε} {job : Job ε} {rest : List (Job ε)} {input : Record} {e : ε}
      (head : s.queue = job :: rest) (free : s.stepping = false)
      (kind : job.kind = .order (.setInput input)) (engine : s.engine = some e) :
      Move S s ({ s with engine := some (S.setInput e input) }.release.announce
        (S.snapshot (S.setInput e input)))
  | bound {s : Session ε} {job : Job ε} {rest : List (Job ε)} {input : Option Record} {e e' : ε}
      (head : s.queue = job :: rest) (free : s.stepping = false)
      (kind : job.kind = .order (.init e input)) (fresh : e' = input.elim e (S.setInput e)) :
      Move S s ({ s.shutEngine S with engine := some e' }.release.announce (S.snapshot e'))
  | removed {s : Session ε} {job : Job ε} {rest : List (Job ε)}
      (head : s.queue = job :: rest) (free : s.stepping = false)
      (kind : job.kind = .order .destroy) :
      Move S s { (s.shutEngine S).release with subscribers := [] }
  | finished (s : Session ε) (job : Nat) (result : Option Snapshot) :
      Move S s (s.note (.finished job result))

/-- Chains of moves. -/
abbrev Moves (S : Stepper ε) : Session ε → Session ε → Prop := Relation.ReflTransGen (Move S)

variable {S : Stepper ε}

/-- What every move keeps, a chain of moves keeps. -/
theorem Moves.keeps {P : Session ε → Prop} (h : ∀ {s s'}, Move S s s' → P s → P s')
    {s s' : Session ε} (m : Moves S s s') (hs : P s) : P s' := by
  induction m with
  | refl => exact hs
  | tail _ last ih => exact h last ih

/-! ## Actions are chains of moves -/

theorem moves_setInterval (s : Session ε) (interval : Nat) :
    Moves S s (s.setInterval interval) := by
  unfold setInterval
  split
  · exact .tail (.single (.paused s)) (.played _ interval _)
  · next idle => exact .single (.paced interval (by simpa using idle))

theorem moves_react (reactions : List Reaction) (s : Session ε) :
    Moves S s (s.react reactions) := by
  induction reactions generalizing s with
  | nil => exact .refl
  | cons r rest ih =>
    cases r with
    | panic => exact .refl
    | pause => exact .head (.paused s) (ih _)
    | play interval limit => exact .head (.played s interval limit) (ih _)
    | setInterval interval => exact (moves_setInterval s interval).trans (ih _)
    | subscribe name listener => exact .head (.subscribed s name listener) (ih _)
    | unsubscribe name => exact .head (.unsubscribed s name) (ih _)

theorem moves_deliver (snapshot : Snapshot) (s : Session ε) (u : Subscriber) :
    Moves S s (deliver snapshot s u) :=
  .head (.called s u snapshot) (moves_react _ _)

theorem moves_notify (s : Session ε) (snapshot : Snapshot) : Moves S s (s.notify snapshot) := by
  unfold notify
  generalize s.subscribers = us
  induction us generalizing s with
  | nil => exact .refl
  | cons u us ih => exact (moves_deliver snapshot s u).trans (ih _)

theorem moves_tell {s s' : Session ε} {snapshot : Snapshot} (job : Nat) (result : Option Snapshot)
    (m : Move S s s') : Moves S s ((s'.notify snapshot).note (.finished job result)) :=
  ((Relation.ReflTransGen.single m).trans (moves_notify s' snapshot)).tail (.finished _ job result)

theorem moves_beginStep {s : Session ε} {job : Job ε} {rest : List (Job ε)}
    (head : s.queue = job :: rest) (free : s.stepping = false) (steps : job.steps = true) :
    Moves S s (s.beginStep S job).through := by
  unfold beginStep
  split
  · next engine =>
    rw [through_quit, conclude_eq]
    exact moves_tell _ _ (.unbound head free steps engine)
  · next e engine =>
    split
    · next valid => exact .single (.begun head free steps engine valid)
    · next invalid =>
      rw [through_quit, conclude_eq]
      exact moves_tell _ _ (.rejected head free steps engine invalid)

theorem moves_runSetInput {s : Session ε} {job : Job ε} {rest : List (Job ε)} {input : Record}
    (head : s.queue = job :: rest) (free : s.stepping = false)
    (kind : job.kind = .order (.setInput input)) :
    Moves S s (s.runSetInput S job input).through := by
  unfold runSetInput
  split
  · next engine => exact .tail (.single (.ignored head free kind engine)) (.finished _ _ _)
  · next e engine => exact moves_tell job.id none (.replaced head free kind engine)

theorem moves_runInit {s : Session ε} {job : Job ε} {rest : List (Job ε)} {e : ε}
    {input : Option Record} (head : s.queue = job :: rest) (free : s.stepping = false)
    (kind : job.kind = .order (.init e input)) :
    Moves S s (s.runInit S job e input).through :=
  moves_tell job.id none (.bound head free kind (by cases input <;> rfl))

theorem moves_begin (s : Session ε) : Moves S s (s.begin S) := by
  unfold begin takeUp
  split
  · exact .refl
  · next job rest head =>
    split
    · exact .refl
    · next free =>
      rw [Bool.not_eq_true] at free
      split
      · next kind => exact moves_beginStep head free (by simp [Job.steps, kind])
      · next kind => exact moves_beginStep head free (by simp [Job.steps, kind])
      · next input kind => exact moves_runSetInput head free kind
      · next e input kind => exact moves_runInit head free kind
      · next kind => exact .tail (.single (.removed head free kind)) (.finished _ _ _)

theorem moves_complete (s : Session ε) : Moves S s (s.complete S) := by
  unfold complete takeLeave
  split
  · next job rest e head engine =>
    dsimp only
    split
    · next busy =>
      rw [through_quit, conclude_eq]
      exact moves_tell _ _ (.completed head busy engine)
    · exact .refl
  · exact .refl

/-- The scheduler starts a tick that it holds, or nothing happens. -/
theorem fire_eq (s : Session ε) (handle : Nat) :
    s.fire handle = match s.armed.find? (·.handle = handle) with
      | none => s
      | some tick =>
        let s := { s with armed := s.armed.filter (·.handle ≠ handle) }
        if s.isCurrent tick.generation then s.enqueue (.tick tick.generation) else s := by
  unfold fire awaken
  cases s.armed.find? (·.handle = handle) with
  | none => rfl
  | some tick =>
    dsimp only
    split <;> rfl

theorem moves_fire (s : Session ε) (handle : Nat) : Moves S s (s.fire handle) := by
  rw [fire_eq]
  split
  · exact .refl
  · next tick found =>
    have eq : tick.handle = handle := by simpa using List.find?_some found
    subst eq
    exact .single (.started (List.mem_of_find?_eq_some found))

theorem moves_enter (s : Session ε) (order : Order ε) : Moves S s (s.enter order) := by
  cases order with
  | step => exact .single (.ordered s .step)
  | setInput input => exact .single (.ordered s (.setInput input))
  | init e input => exact .tail (.single (.paused s)) (.ordered _ (.init e input))
  | destroy => exact .tail (.single (.paused s)) (.ordered _ .destroy)

/-- **An action is a chain of moves.** -/
theorem moves_act (s : Session ε) (a : Action ε) : Moves S s (s.act S a) := by
  cases a with
  | play interval limit => exact .single (.played s interval limit)
  | playConfig config => exact .single (.played s config.playbackInterval config.limit)
  | pause => exact .single (.paused s)
  | setInterval interval => exact moves_setInterval s interval
  | subscribe name listener => exact .single (.subscribed s name listener)
  | unsubscribe name => exact .single (.unsubscribed s name)
  | enter order => exact moves_enter s order
  | fire handle => exact moves_fire s handle
  | begin => exact moves_begin s
  | complete => exact moves_complete s

/-- **A run is a chain of moves.** -/
theorem moves_run (s : Session ε) (actions : List (Action ε)) : Moves S s (s.run S actions) := by
  induction actions generalizing s with
  | nil => exact .refl
  | cons a actions ih => exact (moves_act s a).trans (ih _)

/-- What every move keeps, a run keeps. -/
theorem keeps_run {P : Session ε → Prop} (h : ∀ {s s'}, Move S s s' → P s → P s')
    {s : Session ε} (hs : P s) (actions : List (Action ε)) : P (s.run S actions) :=
  (moves_run s actions).keeps h hs

/-! ## Steps of the engine -/

theorem begin_stepping {s : Session ε} {job : Job ε} {e : ε}
    (h : (s.begin S).log = .stepping job e :: s.log) :
    job ∈ s.queue ∧ s.engine = some e ∧ s.objections (S.snapshot e).input = [] := by
  have idle : s.log ≠ .stepping job e :: s.log := fun eq => List.cons_ne_self _ _ eq.symm
  unfold begin takeUp at h
  split at h
  · exact absurd h idle
  · next head rest queue =>
    split at h
    · exact absurd h idle
    · have begun (h : (s.beginStep S head).through.log = .stepping job e :: s.log) :
          job ∈ s.queue ∧ s.engine = some e ∧ s.objections (S.snapshot e).input = [] := by
        unfold beginStep at h
        split at h
        · rw [through_quit, conclude_eq] at h
          exact nomatch (List.cons.inj h).1
        · next engine =>
          split at h
          · next valid =>
            obtain ⟨rfl, rfl⟩ := SessionEvent.stepping.inj (List.cons.inj h).1
            exact ⟨queue ▸ List.mem_cons_self, engine, valid⟩
          · rw [through_quit, conclude_eq] at h
            exact nomatch (List.cons.inj h).1
      split at h
      · exact begun h
      · exact begun h
      · unfold runSetInput at h
        split at h
        · exact nomatch (List.cons.inj h).1
        · exact nomatch (List.cons.inj h).1
      · exact nomatch (List.cons.inj h).1
      · exact nomatch (List.cons.inj h).1

end Session

end Cadence
