import Cadence.Proofs.Playback.Gate

/-!
# What is said in a session

A job joins the queue and ends at its head, and what is said in between is one broadcast at most.
It calls those who are registered when it starts. Listeners may panic, and come and go while it
lasts, but they have no part in who is called, in which order and with what.

* `Utterance`, `Session.utterances`: the broadcasts and the calls of listeners, as they came;
* `Session.roster`: the numbers of those who are registered;
* **`Session.publish_spec`**: what is said in a broadcast;
* `Session.joins`, `Session.ends`: the jobs that an action begins and ends;
* `Session.Course`, **`Session.course_act`**: what an action does to the queue, and what is said of
  it.
-/

namespace Cadence

variable {ε : Type}

/-- What is said in a session: a broadcast starts, or a listener is called. -/
inductive Utterance
  | told (snapshot : Snapshot)
  | called (subscriber : Nat) (snapshot : Snapshot)

/-- All that is said in a broadcast to listeners with these numbers. -/
def Utterance.broadcast (ids : List Nat) (snapshot : Snapshot) : List Utterance :=
  .told snapshot :: ids.map (.called · snapshot)

/-- The snapshot of a broadcast that starts. -/
def Utterance.told? : Utterance → Option Snapshot
  | .told snapshot => some snapshot
  | .called .. => none

theorem Utterance.told_broadcast (ids : List Nat) (snapshot : Snapshot) :
    (broadcast ids snapshot).filterMap told? = [snapshot] := by
  simp [broadcast, told?, List.filterMap_map, Function.comp_def]

/-- What an event says. -/
def SessionEvent.utterance? : SessionEvent ε → Option Utterance
  | .broadcast snapshot => some (.told snapshot)
  | .heard id _ _ snapshot => some (.called id snapshot)
  | _ => none

/-- A job of this kind has a broadcast. For a new input this takes an engine. -/
def JobKind.speaks (bound : Bool) : JobKind ε → Bool
  | .tick _ | .order .step | .order (.init ..) => true
  | .order (.setInput _) => bound
  | .order .destroy => false

namespace Session

/-- What was said, as it came. -/
def utterances (s : Session ε) : List Utterance :=
  (s.log.filterMap SessionEvent.utterance?).reverse

/-- The numbers of those who are registered. They are handed out in order. -/
def roster (s : Session ε) : List Nat := s.subscribers.map (·.id)

/-- A job that has ended: its kind, and whether an engine was bound right before. -/
structure Ended (ε : Type) where
  kind : JobKind ε
  bound : Bool

/-- The job has had a broadcast. -/
def Ended.speaks (d : Ended ε) : Bool := d.kind.speaks d.bound

/-- The job that joins the queue: what a caller orders, and a tick that is current. -/
def joins (s : Session ε) : Action ε → Option (JobKind ε)
  | .enter order => some (.order order)
  | .fire handle => (s.armed.find? (·.handle = handle)).bind fun tick =>
      if s.isCurrent tick.generation then some (.tick tick.generation) else none
  | _ => none

/-- The job that an action ends: the head of the queue, if the queue is shorter behind it. -/
def ends (S : Stepper ε) (s : Session ε) (a : Action ε) : Option (Ended ε) :=
  match s.queue with
  | [] => none
  | job :: _ =>
    if (s.act S a).queue.length < s.queue.length then some ⟨job.kind, s.engine.isSome⟩ else none

variable {S : Stepper ε} {s s' s'' : Session ε}

/-! ## Listeners -/

/-- Nothing was said between two sessions, and no job has come or gone. -/
structure Hushed (s s' : Session ε) : Prop where
  queue : s'.queue = s.queue
  utterances : s'.utterances = s.utterances

theorem Hushed.refl (s : Session ε) : Hushed s s := ⟨rfl, rfl⟩

theorem Hushed.trans (h : Hushed s s') (h' : Hushed s' s'') : Hushed s s'' :=
  ⟨h'.queue.trans h.queue, h'.utterances.trans h.utterances⟩

theorem hushed_pause (s : Session ε) : Hushed s s.pause := by
  unfold pause
  split
  · exact ⟨rfl, rfl⟩
  · exact ⟨rfl, rfl⟩

theorem hushed_playLimited (s : Session ε) (interval : Nat) (limit : Option Nat) :
    Hushed s (s.playLimited interval limit) := by
  unfold playLimited
  split
  · exact .refl s
  · exact ⟨rfl, rfl⟩

theorem hushed_setInterval (s : Session ε) (interval : Nat) :
    Hushed s (s.setInterval interval) := by
  unfold setInterval
  split
  · exact s.hushed_pause.trans (hushed_playLimited _ _ _)
  · exact ⟨rfl, rfl⟩

theorem hushed_unsubscribe (s : Session ε) (name : String) : Hushed s (s.unsubscribe name) := by
  unfold unsubscribe
  split
  · exact .refl s
  · exact ⟨rfl, rfl⟩

theorem hushed_react (reactions : List Reaction) (s : Session ε) :
    Hushed s (s.react reactions) := by
  induction reactions generalizing s with
  | nil => exact .refl s
  | cons r rest ih =>
    cases r with
    | panic => exact .refl s
    | pause => exact s.hushed_pause.trans (ih _)
    | play interval limit => exact (s.hushed_playLimited interval limit).trans (ih _)
    | setInterval interval => exact (s.hushed_setInterval interval).trans (ih _)
    | subscribe name listener =>
      have registered : Hushed s (s.subscribe name listener) := ⟨rfl, rfl⟩
      exact registered.trans (ih _)
    | unsubscribe name => exact (s.hushed_unsubscribe name).trans (ih _)

theorem utterances_note (s : Session ε) (e : SessionEvent ε) :
    (s.note e).utterances = s.utterances ++ e.utterance?.toList := by
  unfold utterances note
  cases said : e.utterance? <;> simp [said]

theorem deliver_spec (snapshot : Snapshot) (s : Session ε) (u : Subscriber) :
    (deliver snapshot s u).queue = s.queue ∧
      (deliver snapshot s u).utterances = s.utterances ++ [.called u.id snapshot] := by
  have reacted := hushed_react (u.listener u.calls snapshot)
    ((s.note (.heard u.id u.name s.playing snapshot)).countCall u.id)
  exact ⟨reacted.queue, reacted.utterances.trans (s.utterances_note _)⟩

/-- **A broadcast** calls everyone who is registered when it starts, whatever they do. -/
theorem publish_spec (s : Session ε) (snapshot : Snapshot) :
    (s.publish snapshot).queue = s.queue ∧
      (s.publish snapshot).utterances =
        s.utterances ++ Utterance.broadcast s.roster snapshot := by
  have go (us : List Subscriber) (t : Session ε) :
      (us.foldl (deliver snapshot) t).queue = t.queue ∧
        (us.foldl (deliver snapshot) t).utterances =
          t.utterances ++ us.map fun u => .called u.id snapshot := by
    induction us generalizing t with
    | nil => simp
    | cons u us ih =>
      obtain ⟨queue, said⟩ := deliver_spec snapshot t u
      obtain ⟨queue', said'⟩ := ih (deliver snapshot t u)
      refine ⟨queue'.trans queue, ?_⟩
      rw [List.foldl_cons, said', said]
      simp
  have announced : (s.announce snapshot).utterances = s.utterances ++ [.told snapshot] :=
    utterances_note { s with last := snapshot } (.broadcast snapshot)
  obtain ⟨queue, said⟩ := go s.subscribers (s.announce snapshot)
  refine ⟨queue, said.trans ?_⟩
  rw [announced]
  simp [Utterance.broadcast, roster]

/-! ## Jobs -/

/-- While the engine is in a step, the head of the queue is a job that steps it. -/
def Manned (s : Session ε) : Prop :=
  s.stepping = true → ∃ job rest, s.queue = job :: rest ∧ job.steps = true

theorem manned_of_free (free : s.stepping = false) : Manned s := by
  intro busy
  rw [free] at busy
  cases busy

theorem Outside.manned (h : Outside s s') (manned : Manned s) : Manned s' := by
  intro busy
  obtain ⟨job, rest, head, steps⟩ := manned (h.stepping.symm.trans busy)
  obtain ⟨more, queue⟩ := h.queue
  exact ⟨job, rest ++ more, by rw [← queue, head]; rfl, steps⟩

theorem Move.manned (m : Move S s s') (h : Manned s) : Manned s' := by
  cases m with
  | paused => exact s.outside_pause.manned h
  | played interval limit => exact (s.outside_playLimited interval limit).manned h
  | unsubscribed name => exact (s.outside_unsubscribe name).manned h
  | ordered order => exact (s.outside_enqueue (.order order)).manned h
  | started => exact (s.outside_start _).manned h
  | paced | subscribed | called | finished => exact h
  | begun head free steps => exact fun _ => ⟨_, _, head, steps⟩
  | unbound | rejected | completed => exact manned_of_free (stepping_settle _ _ _)
  | ignored | replaced | bound | removed => exact manned_of_free (stepping_release _)

theorem speaks_of_steps {job : Job ε} (steps : job.steps = true) (bound : Bool) :
    job.kind.speaks bound = true := by
  obtain ⟨id, kind⟩ := job
  cases kind with
  | tick => rfl
  | order order =>
    cases order with
    | step => rfl
    | setInput | init | destroy => cases steps

/-- Everything about registrations is as before. -/
structure Settled (s s' : Session ε) : Prop where
  roster : s'.roster = s.roster
  names : s'.names = s.names
  next : s'.nextSubscriber = s.nextSubscriber

/-- A job ends: the head of the queue is gone, nothing was said, and everyone stays registered. -/
structure Freed (s s' : Session ε) : Prop extends Settled s s' where
  queue : s'.queue = s.queue.tail
  utterances : s'.utterances = s.utterances

theorem freed_release (s : Session ε) : Freed s s.release := by
  obtain ⟨log, rfl | ⟨job, rfl⟩, eq⟩ := s.exists_release_eq
  · rw [eq]
    exact ⟨⟨rfl, rfl, rfl⟩, rfl, rfl⟩
  · rw [eq]
    exact ⟨⟨rfl, rfl, rfl⟩, rfl, rfl⟩

theorem freed_settle (s : Session ε) (job : Job ε) (snapshot : Snapshot) :
    Freed s (s.settle job snapshot) := by
  obtain ⟨settled, queue, utterances⟩ := s.freed_release
  unfold settle commit
  split
  · split
    · split
      · exact ⟨⟨settled.roster, settled.names, settled.next⟩, queue, utterances⟩
      · exact ⟨⟨settled.roster, settled.names, settled.next⟩, queue, utterances⟩
    · exact ⟨settled, queue, utterances⟩
  · exact ⟨settled, queue, utterances⟩

/-- A job ends with a broadcast. -/
theorem Freed.publish (h : Freed s s') (snapshot : Snapshot) (job : Nat)
    (result : Option Snapshot) :
    let t := (s'.publish snapshot).note (.finished job result)
    t.queue = s.queue.tail ∧
      t.utterances = s.utterances ++ Utterance.broadcast s.roster snapshot := by
  intro t
  obtain ⟨queue, said⟩ := s'.publish_spec snapshot
  have noted : t.utterances = (s'.publish snapshot).utterances := by
    simp [t, utterances_note, SessionEvent.utterance?]
  refine ⟨queue.trans h.queue, ?_⟩
  rw [noted, said, h.utterances, h.roster]

/-- What an action does to the queue, and what is said of it. Either no job ends, and one may join
the queue; or the head of the queue ends, with a broadcast if it has one, and if it was to destroy
the session, then nobody stays registered. -/
inductive Course (S : Stepper ε) (s : Session ε) (a : Action ε) : Prop
  | goesOn (kinds : (s.act S a).queue.map (·.kind) = s.queue.map (·.kind) ++ (s.joins a).toList)
      (silent : (s.act S a).utterances = s.utterances)
  | ends (job : Job ε) (head : s.queue = job :: (s.act S a).queue) (none : s.joins a = none)
      (silent : job.kind.speaks s.engine.isSome = false →
        (s.act S a).utterances = s.utterances)
      (tells : job.kind.speaks s.engine.isSome = true → ∃ snapshot,
        (s.act S a).utterances = s.utterances ++ Utterance.broadcast s.roster snapshot)
      (clears : job.kind = .order .destroy → (s.act S a).roster = [])

theorem Course.hushed {a : Action ε} (h : Hushed s (s.act S a)) (none : s.joins a = none) :
    Course S s a := by
  refine .goesOn ?_ h.utterances
  rw [h.queue, none]
  simp

theorem Course.queued {a : Action ε} {kind : JobKind ε} (h : Hushed s s')
    (act : s.act S a = s'.enqueue kind) (joins : s.joins a = some kind) : Course S s a := by
  refine .goesOn ?_ ?_
  · rw [act, joins, ← h.queue]
    simp [enqueue]
  · rw [act]
    exact h.utterances

theorem course_enter (s : Session ε) (order : Order ε) : Course S s (.enter order) := by
  cases order with
  | step | setInput => exact .queued (.refl s) rfl rfl
  | init | destroy => exact .queued s.hushed_pause rfl rfl

theorem course_fire (s : Session ε) (handle : Nat) : Course S s (.fire handle) := by
  cases found : s.armed.find? (·.handle = handle) with
  | none =>
    have unfired : s.act S (.fire handle) = s := by
      show s.fire handle = s
      rw [fire_eq, found]
    refine .hushed ?_ (by simp [joins, found])
    rw [unfired]
    exact .refl s
  | some tick =>
    let t := { s with armed := s.armed.filter (·.handle ≠ handle) }
    have fired : s.act S (.fire handle) =
        if t.isCurrent tick.generation then t.enqueue (.tick tick.generation) else t := by
      show s.fire handle = _
      rw [fire_eq, found]
    have hushed : Hushed s t := ⟨rfl, rfl⟩
    by_cases current : s.isCurrent tick.generation = true
    · rw [if_pos (show t.isCurrent tick.generation = true from current)] at fired
      exact .queued hushed fired (by simp [joins, found, current])
    · rw [if_neg (show ¬ t.isCurrent tick.generation = true from current)] at fired
      refine .hushed ?_ (by simp [joins, found, current])
      rw [fired]
      exact hushed

theorem conclude_spec (s : Session ε) (job : Job ε) (snapshot : Snapshot) :
    (s.conclude job snapshot).queue = s.queue.tail ∧
      (s.conclude job snapshot).utterances =
        s.utterances ++ Utterance.broadcast s.roster snapshot := by
  rw [conclude_eq]
  exact (s.freed_settle job snapshot).publish snapshot job.id (some snapshot)

theorem hushed_shutEngine (S : Stepper ε) (s : Session ε) :
    Hushed s (s.shutEngine S) ∧ Settled s (s.shutEngine S) := by
  unfold shutEngine
  split
  · exact ⟨.refl s, rfl, rfl, rfl⟩
  · exact ⟨⟨rfl, rfl⟩, rfl, rfl, rfl⟩

/-- A job that tells something ends. -/
theorem Course.told {a : Action ε} {job : Job ε} {rest : List (Job ε)}
    (head : s.queue = job :: rest) (none : s.joins a = none)
    (speaks : job.kind.speaks s.engine.isSome = true)
    (h : ∃ snapshot, (s.act S a).queue = s.queue.tail ∧
      (s.act S a).utterances = s.utterances ++ Utterance.broadcast s.roster snapshot) :
    Course S s a := by
  obtain ⟨snapshot, queue, said⟩ := h
  refine .ends job ?_ none (fun silent => ?_) (fun _ => ⟨snapshot, said⟩) fun destroys => ?_
  · rw [queue, head]
    rfl
  · rw [speaks] at silent
    cases silent
  · rw [destroys] at speaks
    cases speaks

theorem Course.untold {a : Action ε} {job : Job ε} {rest : List (Job ε)}
    (head : s.queue = job :: rest) (none : s.joins a = none)
    (silent : job.kind.speaks s.engine.isSome = false)
    (clears : job.kind = .order .destroy → (s.act S a).roster = [])
    (h : (s.act S a).queue = s.queue.tail ∧ (s.act S a).utterances = s.utterances) :
    Course S s a := by
  refine .ends job ?_ none (fun _ => h.2) (fun speaks => ?_) clears
  · rw [h.1, head]
    rfl
  · rw [silent] at speaks
    cases speaks

theorem course_beginStep {job : Job ε} {rest : List (Job ε)} (head : s.queue = job :: rest)
    (begins : s.begin S = (s.beginStep S job).through)
    (speaks : job.kind.speaks s.engine.isSome = true) : Course S s .begin := by
  have concluded {snapshot : Snapshot} (eq : s.begin S = s.conclude job snapshot) :
      Course S s .begin := by
    have tells := s.conclude_spec job snapshot
    rw [← eq] at tells
    exact .told head rfl speaks ⟨snapshot, tells⟩
  unfold beginStep at begins
  split at begins
  · exact concluded begins
  · split at begins
    · refine .hushed ?_ rfl
      show Hushed s (s.begin S)
      rw [begins]
      exact ⟨rfl, rfl⟩
    · exact concluded begins

theorem course_runSetInput {job : Job ε} {rest : List (Job ε)} {input : Record}
    (head : s.queue = job :: rest) (kind : job.kind = .order (.setInput input))
    (begins : s.begin S = (s.runSetInput S job input).through) : Course S s .begin := by
  unfold runSetInput at begins
  split at begins
  · next unbound =>
    have silent : job.kind.speaks s.engine.isSome = false := by simp [kind, unbound, JobKind.speaks]
    have freed := s.freed_release
    refine .untold head rfl silent (fun destroys => nomatch kind.symm.trans destroys) ?_
    show (s.begin S).queue = _ ∧ (s.begin S).utterances = _
    rw [begins]
    exact ⟨freed.queue, freed.utterances⟩
  · next e bound =>
    have speaks : job.kind.speaks s.engine.isSome = true := by simp [kind, bound, JobKind.speaks]
    have tells := (freed_release { s with engine := some (S.setInput e input) }).publish
      (S.snapshot (S.setInput e input)) job.id none
    refine .told head rfl speaks ⟨S.snapshot (S.setInput e input), ?_⟩
    show (s.begin S).queue = _ ∧ (s.begin S).utterances = _
    rw [begins]
    exact tells

theorem course_runInit {job : Job ε} {rest : List (Job ε)} {e : ε} {input : Option Record}
    (head : s.queue = job :: rest) (kind : job.kind = .order (.init e input))
    (begins : s.begin S = (s.runInit S job e input).through) : Course S s .begin := by
  have speaks : job.kind.speaks s.engine.isSome = true := by simp [kind, JobKind.speaks]
  obtain ⟨hushed, settled⟩ := s.hushed_shutEngine S
  let fresh := input.elim e (S.setInput e)
  have tells := (freed_release { s.shutEngine S with engine := some fresh }).publish
    (S.snapshot fresh) job.id none
  have eq : s.begin S = ({ s.shutEngine S with engine := some fresh }.release.publish
      (S.snapshot fresh)).note (.finished job.id none) := by
    rw [begins]
    cases input <;> rfl
  refine .told head rfl speaks ⟨S.snapshot fresh, ?_⟩
  show (s.begin S).queue = _ ∧ (s.begin S).utterances = _
  rw [eq, ← hushed.queue, ← hushed.utterances, ← settled.roster]
  exact tells

theorem course_runDestroy {job : Job ε} {rest : List (Job ε)} (head : s.queue = job :: rest)
    (kind : job.kind = .order .destroy) (begins : s.begin S = (s.runDestroy S job).through) :
    Course S s .begin := by
  have silent : job.kind.speaks s.engine.isSome = false := by simp [kind, JobKind.speaks]
  obtain ⟨hushed, -⟩ := s.hushed_shutEngine S
  have freed := freed_release (s.shutEngine S)
  refine .untold head rfl silent (fun _ => ?_) ?_
  · show (s.begin S).roster = []
    rw [begins]
    rfl
  show (s.begin S).queue = _ ∧ (s.begin S).utterances = _
  rw [begins, ← hushed.queue, ← hushed.utterances]
  exact ⟨freed.queue, freed.utterances⟩

theorem course_begin (S : Stepper ε) (s : Session ε) : Course S s .begin := by
  cases head : s.queue with
  | nil =>
    have unbegun : s.begin S = s := by
      unfold begin takeUp
      rw [head]
      rfl
    refine .hushed ?_ rfl
    show Hushed s (s.begin S)
    rw [unbegun]
    exact .refl s
  | cons job rest =>
    by_cases busy : s.stepping = true
    · have unbegun : s.begin S = s := by
        unfold begin takeUp
        simp only [head, busy, if_true]
        rfl
      refine .hushed ?_ rfl
      show Hushed s (s.begin S)
      rw [unbegun]
      exact .refl s
    · have begins := begin_eq S head (Bool.not_eq_true _ ▸ busy)
      obtain ⟨id, kind⟩ := job
      cases kind with
      | tick => exact course_beginStep head begins rfl
      | order order =>
        cases order with
        | step => exact course_beginStep head begins rfl
        | setInput input => exact course_runSetInput head rfl begins
        | init e input => exact course_runInit head rfl begins
        | destroy => exact course_runDestroy head rfl begins

theorem course_complete (manned : Manned s) : Course S s .complete := by
  have idle (eq : s.complete S = s) : Course S s .complete := by
    refine .hushed ?_ rfl
    show Hushed s (s.complete S)
    rw [eq]
    exact .refl s
  by_cases busy : s.stepping = true
  · obtain ⟨job, rest, head, steps⟩ := manned busy
    cases bound : s.engine with
    | none => exact idle (by simp [complete, takeLeave, bound, Turn.through])
    | some e =>
      have tells := conclude_spec { s with engine := some (S.step e) } job (S.snapshot (S.step e))
      rw [← complete_eq S head busy bound] at tells
      exact .told head rfl (speaks_of_steps steps _) ⟨_, tells⟩
  · refine idle ?_
    unfold complete takeLeave
    split
    · dsimp only
      rw [if_neg busy]
      rfl
    · rfl

/-- **An action** of a session that has run. -/
theorem course_act (manned : Manned s) (a : Action ε) : Course S s a := by
  cases a with
  | play interval limit => exact .hushed (s.hushed_playLimited interval limit) rfl
  | playConfig config => exact .hushed (s.hushed_playLimited _ _) rfl
  | pause => exact .hushed s.hushed_pause rfl
  | setInterval interval => exact .hushed (s.hushed_setInterval interval) rfl
  | subscribe name listener => exact .hushed ⟨rfl, rfl⟩ rfl
  | unsubscribe name => exact .hushed (s.hushed_unsubscribe name) rfl
  | enter order => exact s.course_enter order
  | fire handle => exact s.course_fire handle
  | begin => exact s.course_begin S
  | complete => exact course_complete manned

theorem Course.ends_eq {a : Action ε} (h : Course S s a) :
    (s.ends S a = none ∧ (s.act S a).utterances = s.utterances ∧
        (s.act S a).queue.map (·.kind) = s.queue.map (·.kind) ++ (s.joins a).toList) ∨
      ∃ d, s.ends S a = some d ∧ s.joins a = none ∧
        s.queue.map (·.kind) = d.kind :: (s.act S a).queue.map (·.kind) ∧
        (d.speaks = false → (s.act S a).utterances = s.utterances) ∧
        (d.speaks = true → ∃ snapshot,
          (s.act S a).utterances = s.utterances ++ Utterance.broadcast s.roster snapshot) ∧
        (d.kind = .order .destroy → (s.act S a).roster = []) := by
  cases h with
  | goesOn kinds silent =>
    refine .inl ⟨?_, silent, kinds⟩
    have longer : s.queue.length ≤ (s.act S a).queue.length := by
      have := congrArg List.length kinds
      simp at this
      omega
    unfold Session.ends
    split
    · rfl
    · exact if_neg (Nat.not_lt.mpr longer)
  | ends job head none silent tells clears =>
    have kinds := congrArg (List.map (·.kind)) head
    refine .inr ⟨⟨job.kind, s.engine.isSome⟩, ?_, none, kinds, silent, tells, clears⟩
    unfold Session.ends
    rw [head]
    exact if_pos (Nat.lt_succ_self _)

end Session

end Cadence
