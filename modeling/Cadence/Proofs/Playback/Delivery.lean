import Cadence.Proofs.Json.Shape
import Cadence.Proofs.Playback.Course

/-!
# Delivery of broadcasts

Each job has its broadcast when it ends, and a listener hears all broadcasts that start from its
registration on until it leaves.

* `Session.joined`, `Session.ended`: the jobs that join the queue in a run, and those that end;
* `Session.ends_begin_of_quick`, `Session.ends_complete`: a job that goes to work ends, at once or
  with its step;
* `Session.accounted`: every job ends in its turn or waits, and there is a broadcast for each one
  that has ended and has one;
* `Session.Listed`: the numbers of listeners ascend;
* `Session.Gone`, `Session.Move.gone`: a listener that has left does not come back;
* **`Session.delivery`**: one broadcast for each job that has one, and who is called.
-/

namespace Cadence

variable {ε : Type}

namespace Session

/-- The jobs that join the queue in a run. -/
def joined (S : Stepper ε) (s : Session ε) : List (Action ε) → List (JobKind ε)
  | [] => []
  | a :: as => (s.joins a).toList ++ joined S (s.act S a) as

/-- The jobs that end in a run. -/
def ended (S : Stepper ε) (s : Session ε) : List (Action ε) → List (Ended ε)
  | [] => []
  | a :: as => (s.ends S a).toList ++ ended S (s.act S a) as

variable {S : Stepper ε} {s s' : Session ε}

/-! ## Jobs -/

theorem broadcasts_eq (s : Session ε) : s.broadcasts = s.utterances.filterMap Utterance.told? := by
  unfold broadcasts utterances
  induction s.log with
  | nil => rfl
  | cons e log ih =>
    rw [List.filterMap_cons]
    cases e <;> simp [SessionEvent.broadcasts, SessionEvent.utterance?, Utterance.told?, ih]

/-- **Every job** ends in its turn or waits, and those that have ended have had their broadcasts. -/
theorem accounted (manned : Manned s) (actions : List (Action ε)) :
    s.queue.map (·.kind) ++ joined S s actions =
        (ended S s actions).map (·.kind) ++ (s.run S actions).queue.map (·.kind) ∧
      (s.run S actions).broadcasts.length =
        s.broadcasts.length + (ended S s actions).countP Ended.speaks := by
  induction actions generalizing s with
  | nil => simp [joined, ended, run]
  | cons a actions ih =>
    obtain ⟨kinds, told⟩ := ih ((moves_act s a).keeps Move.manned manned)
    rw [show s.run S (a :: actions) = (s.act S a).run S actions from rfl, told]
    simp only [joined, ended]
    rcases (course_act (S := S) manned a).ends_eq with
      ⟨none, silent, waiting⟩ | ⟨d, some, none, waiting, silent, tells, -⟩
    · have same : (s.act S a).broadcasts = s.broadcasts := by simp only [broadcasts_eq, silent]
      rw [none, same, ← List.append_assoc, ← waiting, kinds]
      simp
    · rw [some, none, waiting]
      simp only [Option.toList, List.nil_append, List.map_cons, List.cons_append, kinds, true_and,
        List.countP_cons]
      cases speaks : d.speaks with
      | false => simp [broadcasts_eq, silent speaks]
      | true =>
        obtain ⟨snapshot, said⟩ := tells speaks
        simp [broadcasts_eq, said, Utterance.told_broadcast]
        omega

theorem ends_of_queue {a : Action ε} {job : Job ε} {rest : List (Job ε)}
    (head : s.queue = job :: rest) (gone : (s.act S a).queue = s.queue.tail) :
    s.ends S a = some ⟨job.kind, s.engine.isSome⟩ := by
  unfold ends
  rw [gone, head]
  exact if_pos (Nat.lt_succ_self _)

theorem ends_begin_of_quick {job : Job ε} {rest : List (Job ε)} (head : s.queue = job :: rest)
    (free : s.stepping = false) (quick : job.steps = false) :
    s.ends S .begin = some ⟨job.kind, s.engine.isSome⟩ := by
  refine ends_of_queue head ?_
  show (s.begin S).queue = s.queue.tail
  rw [begin_eq S head free]
  obtain ⟨id, kind⟩ := job
  cases kind with
  | tick => cases quick
  | order order =>
    cases order with
    | step => cases quick
    | setInput input =>
      dsimp only
      unfold runSetInput
      split
      · exact s.freed_release.queue
      · exact ((freed_release _).publish _ id none).1
    | init e input =>
      have kept := (s.hushed_shutEngine S).1.queue
      exact ((freed_release _).publish _ id none).1.trans (congrArg List.tail kept)
    | destroy =>
      have kept := (s.hushed_shutEngine S).1.queue
      exact (freed_release _).queue.trans (congrArg List.tail kept)

theorem ends_begin_of_steps {job : Job ε} {rest : List (Job ε)} (head : s.queue = job :: rest)
    (free : s.stepping = false) (steps : job.steps = true) :
    (s.act S .begin).stepping = true ∨
      s.ends S .begin = some ⟨job.kind, s.engine.isSome⟩ := by
  have concluded {snapshot : Snapshot} (eq : s.begin S = s.conclude job snapshot) :
      s.ends S .begin = some ⟨job.kind, s.engine.isSome⟩ := by
    refine ends_of_queue head ?_
    show (s.begin S).queue = s.queue.tail
    rw [eq]
    exact (s.conclude_spec job snapshot).1
  have begun := begin_eq_beginStep S head free steps
  show (s.begin S).stepping = true ∨ _
  unfold beginStep at begun
  split at begun
  · exact .inr (concluded begun)
  · split at begun
    · exact .inl (congrArg Session.stepping begun)
    · exact .inr (concluded begun)

theorem ends_complete {job : Job ε} {rest : List (Job ε)} (head : s.queue = job :: rest)
    (busy : s.stepping = true) {e : ε} (bound : s.engine = some e) :
    s.ends S .complete = some ⟨job.kind, s.engine.isSome⟩ := by
  refine ends_of_queue head ?_
  show (s.complete S).queue = s.queue.tail
  rw [complete_eq S head busy bound]
  exact (conclude_spec { s with engine := some (S.step e) } job _).1

/-! ## Listeners -/

/-- The numbers of listeners ascend in the order of their registration, and stay below the next
one. -/
structure Listed (s : Session ε) : Prop where
  ascending : s.roster.Pairwise (· < ·)
  below : ∀ id ∈ s.roster, id < s.nextSubscriber
  named : ∀ e ∈ s.names, e.2 < s.nextSubscriber

/-- A listener was registered and has left. -/
structure Gone (id : Nat) (s : Session ε) : Prop where
  below : id < s.nextSubscriber
  left : id ∉ s.roster

theorem Settled.trans {s'' : Session ε} (h : Settled s s') (h' : Settled s' s'') : Settled s s'' :=
  ⟨h'.roster.trans h.roster, h'.names.trans h.names, h'.next.trans h.next⟩

theorem roster_countCall (s : Session ε) (id : Nat) : (s.countCall id).roster = s.roster := by
  unfold countCall roster
  rw [List.map_map]
  refine List.map_congr_left fun u _ => ?_
  by_cases own : u.id = id
  · simp [own]
  · simp [own]

theorem settled_pause (s : Session ε) : Settled s s.pause := by
  unfold pause
  split
  · exact ⟨rfl, rfl, rfl⟩
  · exact ⟨rfl, rfl, rfl⟩

theorem settled_playLimited (s : Session ε) (interval : Nat) (limit : Option Nat) :
    Settled s (s.playLimited interval limit) := by
  unfold playLimited
  split
  · exact ⟨rfl, rfl, rfl⟩
  · exact ⟨rfl, rfl, rfl⟩

theorem settled_start (s : Session ε) (tick : Tick) : Settled s (s.start tick) := by
  unfold start
  dsimp only
  split
  · exact ⟨rfl, rfl, rfl⟩
  · exact ⟨rfl, rfl, rfl⟩

theorem settled_leave (s : Session ε) (job : Job ε) (snapshot : Snapshot) :
    Settled s (s.leave job snapshot) := by
  obtain ⟨roster, names, next⟩ := (s.freed_settle job snapshot).toSettled
  exact ⟨roster, names, next⟩

theorem Move.settled_or (m : Move S s s') :
    Settled s s' ∨ (∃ name listener, s' = s.subscribe name listener) ∨
      (∃ name, s' = s.unsubscribe name) ∨
      s'.roster = [] ∧ s'.names = s.names ∧ s'.nextSubscriber = s.nextSubscriber := by
  cases m with
  | subscribed name listener => exact .inr (.inl ⟨name, listener, rfl⟩)
  | unsubscribed name => exact .inr (.inr (.inl ⟨name, rfl⟩))
  | removed =>
    have settled := (s.hushed_shutEngine S).2.trans (freed_release _).toSettled
    exact .inr (.inr (.inr ⟨rfl, settled.names, settled.next⟩))
  | paused => exact .inl s.settled_pause
  | played interval limit => exact .inl (s.settled_playLimited interval limit)
  | started => exact .inl (s.settled_start _)
  | called u snapshot => exact .inl ⟨roster_countCall _ _, rfl, rfl⟩
  | paced | ordered | begun | finished => exact .inl ⟨rfl, rfl, rfl⟩
  | unbound => exact .inl (s.settled_leave _ _)
  | rejected => exact .inl (s.settled_leave _ _)
  | @completed _ _ e =>
    obtain ⟨roster, names, next⟩ := settled_leave { s with engine := some (S.step e) } _ _
    exact .inl ⟨roster, names, next⟩
  | ignored => exact .inl s.freed_release.toSettled
  | @replaced _ _ input e =>
    have freed := freed_release { s with engine := some (S.setInput e input) }
    exact .inl ⟨freed.roster, freed.names, freed.next⟩
  | @bound _ _ _ _ e' =>
    have settled := (s.hushed_shutEngine S).2
    have freed := freed_release { s.shutEngine S with engine := some e' }
    exact .inl ⟨freed.roster.trans settled.roster, freed.names.trans settled.names,
      freed.next.trans settled.next⟩

theorem roster_unsubscribe {name : String} {id : Nat}
    (named : Entries.get? name s.names = some id) :
    (s.unsubscribe name).roster = s.roster.filter (· ≠ id) := by
  unfold unsubscribe roster
  simp only [named]
  exact (List.filter_map (p := (· ≠ id)) (f := Subscriber.id) (l := s.subscribers)).symm

theorem roster_unsubscribe_sublist (s : Session ε) (name : String) :
    (s.unsubscribe name).roster.Sublist s.roster := by
  cases named : Entries.get? name s.names with
  | none =>
    have same : s.unsubscribe name = s := by
      unfold unsubscribe
      rw [named]
    exact same.symm ▸ List.Sublist.refl s.roster
  | some id =>
    rw [roster_unsubscribe named]
    exact List.filter_sublist

theorem next_unsubscribe (s : Session ε) (name : String) :
    (s.unsubscribe name).nextSubscriber = s.nextSubscriber := by
  unfold unsubscribe
  split <;> rfl

theorem names_unsubscribe_subset (s : Session ε) (name : String) :
    (s.unsubscribe name).names ⊆ s.names := by
  unfold unsubscribe
  split
  · exact List.Subset.refl _
  · exact List.filter_sublist.subset

/-- Every move hands out numbers in order. -/
theorem Move.listed (m : Move S s s') (h : Listed s) : Listed s' := by
  rcases m.settled_or with settled | ⟨name, listener, rfl⟩ | ⟨name, rfl⟩ | ⟨empty, names, next⟩
  · refine ⟨?_, ?_, ?_⟩
    · rw [settled.roster]
      exact h.ascending
    · rw [settled.roster, settled.next]
      exact h.below
    · rw [settled.names, settled.next]
      exact h.named
  · have roster : (s.subscribe name listener).roster = s.roster ++ [s.nextSubscriber] := by
      simp [subscribe, Session.roster]
    refine ⟨?_, fun id mem => ?_, fun e mem => ?_⟩
    · rw [roster]
      refine List.pairwise_append.mpr ⟨h.ascending, List.pairwise_singleton _ _, ?_⟩
      intro id mem next new
      rw [List.mem_singleton.mp new]
      exact h.below id mem
    · rw [roster] at mem
      show id < s.nextSubscriber + 1
      rcases List.mem_append.mp mem with old | new
      · exact Nat.lt_succ_of_lt (h.below id old)
      · rw [List.mem_singleton.mp new]
        exact Nat.lt_succ_self _
    · show e.2 < s.nextSubscriber + 1
      rcases List.mem_cons.mp mem with rfl | old
      · exact Nat.lt_succ_self _
      · exact Nat.lt_succ_of_lt (h.named e (List.mem_filter.mp old).1)
  · have kept := s.roster_unsubscribe_sublist name
    refine ⟨h.ascending.sublist kept, fun id mem => ?_, fun e mem => ?_⟩
    · rw [next_unsubscribe]
      exact h.below id (kept.subset mem)
    · rw [next_unsubscribe]
      exact h.named e (s.names_unsubscribe_subset name mem)
  · refine ⟨?_, ?_, ?_⟩
    · rw [empty]
      exact List.Pairwise.nil
    · rw [empty]
      exact fun _ mem => absurd mem List.not_mem_nil
    · rw [names, next]
      exact h.named

theorem listed_fresh (cancels : Bool) (validator : Option (Record → List FieldError)) :
    Listed ({ cancels, validator } : Session ε) :=
  ⟨List.Pairwise.nil, nofun, nofun⟩

/-- **A listener that has left** does not come back. -/
theorem Move.gone {id : Nat} (m : Move S s s') (h : Gone id s) : Gone id s' := by
  rcases m.settled_or with settled | ⟨name, listener, rfl⟩ | ⟨name, rfl⟩ | ⟨empty, -, next⟩
  · refine ⟨?_, ?_⟩
    · rw [settled.next]
      exact h.below
    · rw [settled.roster]
      exact h.left
  · have roster : (s.subscribe name listener).roster = s.roster ++ [s.nextSubscriber] := by
      simp [subscribe, Session.roster]
    refine ⟨Nat.lt_succ_of_lt h.below, ?_⟩
    rw [roster]
    intro mem
    rcases List.mem_append.mp mem with old | new
    · exact h.left old
    · exact absurd (List.mem_singleton.mp new) (Nat.ne_of_lt h.below)
  · refine ⟨?_, fun mem => h.left ((s.roster_unsubscribe_sublist name).subset mem)⟩
    rw [next_unsubscribe]
    exact h.below
  · refine ⟨?_, ?_⟩
    · rw [next]
      exact h.below
    · rw [empty]
      exact List.not_mem_nil

theorem gone_unsubscribe (h : Listed s) {name : String} {id : Nat}
    (named : Entries.get? name s.names = some id) : Gone id (s.unsubscribe name) := by
  obtain ⟨e, mem, rfl⟩ := Entries.exists_mem_of_get? named
  refine ⟨?_, ?_⟩
  · rw [next_unsubscribe]
    exact h.named e mem
  · rw [roster_unsubscribe named]
    simp

/-! ## Every run -/

/-- **Delivery of broadcasts.** Whatever callers, ticks and listeners do, every job that has joined
the queue ends in its turn or waits, and so far there were as many broadcasts as jobs of those kinds
that have one. The job at the head of the queue ends when it begins, unless it steps the engine, and
then it ends when the step is over. The next action starts a broadcast exactly if it ends such a
job; the broadcast calls those who are registered when it starts, each once, in the order of their
registration, with the one snapshot; and otherwise nobody is called. From the moment on at which a
listener is taken off the list, in the middle of a broadcast or not, it is never registered again,
and neither is anyone who had been registered when a session was destroyed. -/
theorem delivery (S : Stepper ε) (cancels : Bool)
    (validator : Option (Record → List FieldError)) (actions : List (Action ε)) :
    let fresh : Session ε := { cancels, validator }
    let s := fresh.run S actions
    joined S fresh actions = (ended S fresh actions).map (·.kind) ++ s.queue.map (·.kind) ∧
      s.broadcasts.length = (ended S fresh actions).countP Ended.speaks ∧
      (∀ job rest, s.queue = job :: rest →
        (s.stepping = false → job.steps = false →
          s.ends S .begin = some ⟨job.kind, s.engine.isSome⟩) ∧
        (s.stepping = false → job.steps = true → (s.act S .begin).stepping = true ∨
          s.ends S .begin = some ⟨job.kind, s.engine.isSome⟩) ∧
        (s.stepping = true → s.ends S .complete = some ⟨job.kind, true⟩)) ∧
      s.roster.Pairwise (· < ·) ∧
      (∀ a, ((s.ends S a).any Ended.speaks = true → ∃ snapshot,
          (s.act S a).utterances = s.utterances ++ Utterance.broadcast s.roster snapshot) ∧
        ((s.ends S a).any Ended.speaks = false → (s.act S a).utterances = s.utterances)) ∧
      (∀ t name id, Moves S fresh t → Entries.get? name t.names = some id →
        ∀ t', Moves S (t.unsubscribe name) t' → id ∉ t'.roster) ∧
      ∀ a d, s.ends S a = some d → d.kind = .order .destroy →
        ∀ id < (s.act S a).nextSubscriber, ∀ t', Moves S (s.act S a) t' → id ∉ t'.roster := by
  intro fresh s
  have manned : Manned fresh := manned_of_free rfl
  have listed {t : Session ε} (moved : Moves S fresh t) : Listed t :=
    moved.keeps Move.listed (listed_fresh cancels validator)
  have course (a : Action ε) : Course S s a :=
    course_act ((moves_run fresh actions).keeps Move.manned manned) a
  obtain ⟨jobs, told⟩ := accounted (S := S) manned actions
  have ascending := (listed (moves_run fresh actions)).ascending
  have gated : Gated S s := keeps_run Move.gated (gated_of_free rfl) actions
  refine ⟨jobs, told.trans (Nat.zero_add _), ?_, ascending, ?_, ?_, ?_⟩
  · intro job rest head
    refine ⟨ends_begin_of_quick head, ends_begin_of_steps head, fun busy => ?_⟩
    obtain ⟨e, bound, -⟩ := gated busy
    rw [ends_complete head busy bound, bound]
    rfl
  · intro a
    rcases (course a).ends_eq with ⟨none, silent, -⟩ | ⟨d, some, -, -, silent, tells, -⟩
    · rw [none]
      exact ⟨nofun, fun _ => silent⟩
    · rw [some]
      exact ⟨tells, silent⟩
  · intro t name id moved named t' later
    exact (later.keeps Move.gone (gone_unsubscribe (listed moved) named)).left
  · intro a d ended destroys id below t' later
    rcases (course a).ends_eq with ⟨none, -, -⟩ | ⟨d', some, -, -, -, -, clears⟩
    · cases none.symm.trans ended
    · obtain rfl := Option.some.inj (some.symm.trans ended)
      have gone : Gone id (s.act S a) := ⟨below, by rw [clears destroys]; exact List.not_mem_nil⟩
      exact (later.keeps Move.gone gone).left

/-- Three listeners, of which the first one panics and the second one removes the third. An engine
is bound, and is in a step. -/
def crowd : List (Action Engine) :=
  [.subscribe "a" (.always .panic), .subscribe "b" (.onCall 1 (.unsubscribe "c")),
    .subscribe "c" .plain, .enter (.init uncounted none), .begin, .enter .step, .enter .destroy,
    .begin]

/-- The snapshot of the step goes to the first two listeners. When the first one leaves, or when the
session is destroyed, it is gone. -/
theorem delivery_crowd :
    let s := ({} : Session Engine).run Engine.stepper crowd
    (s.ends Engine.stepper .complete).map (·.bound) = some true ∧
    (∃ snapshot, (s.complete Engine.stepper).utterances =
      s.utterances ++ Utterance.broadcast [1, 2] snapshot) ∧
      1 ∉ ((s.unsubscribe "a").complete Engine.stepper).roster ∧
      1 ∉ (((s.complete Engine.stepper).begin Engine.stepper).subscribe "a" .plain).roster := by
  intro s
  obtain ⟨-, -, ends, -, tells, leaves, -⟩ := delivery Engine.stepper true none crowd
  obtain ⟨-, -, -, -, -, -, destroyed⟩ := delivery Engine.stepper true none (crowd ++ [.complete])
  refine ⟨?_, (tells .complete).1 rfl, ?_, ?_⟩
  · rw [(ends ⟨1, .order .step⟩ [⟨2, .order .destroy⟩] rfl).2.2 rfl]
    rfl
  · exact leaves s "a" 1 (moves_run _ crowd) (by decide) _ (moves_complete _)
  · exact destroyed .begin ⟨.order .destroy, true⟩ rfl rfl 1 (by decide) _
      (.single (.subscribed _ "a" .plain))

end Session

end Cadence
