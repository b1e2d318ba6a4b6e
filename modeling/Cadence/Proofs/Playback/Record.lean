import Cadence.Playback.Weave
import Cadence.Proofs.Playback.Calm
import Cadence.Proofs.Playback.Limit

/-!
# What an action does to the engine

Callers and listeners leave the engine alone, and a job that changes it has a snapshot to broadcast
when it leaves.

* `Session.Silent`: nothing is broadcast, and the engine stays;
* `Session.Outside`: what callers and listeners do, which leaves the engine and its jobs alone;
* `Session.Shown`: the snapshots that may be broadcast for an engine;
* **`Session.outside_notify`**: listeners are outside;
* `Session.Departs`, **`Session.departs_turn`**: a job that changes the engine leaves with a
  snapshot of it.
-/

namespace Cadence

variable {ε : Type}

namespace Session

/-- Nothing was broadcast between two sessions, and the engine stayed. -/
structure Silent (s s' : Session ε) : Prop where
  engine : s'.engine = s.engine
  last : s'.last = s.last
  broadcasts : s'.broadcasts = s.broadcasts
  validator : s'.validator = s.validator

/-- Nothing was done with the engine between two sessions, but jobs may have joined the queue. -/
structure Outside (s s' : Session ε) : Prop extends Silent s s' where
  stepping : s'.stepping = s.stepping
  queue : s.queue <+: s'.queue

/-- The snapshots that are broadcast for an engine: its own one, and while the validator objects to
its input, the same with a text of the objections. -/
inductive Shown (S : Stepper ε) (s : Session ε) (e : ε) : Snapshot → Prop
  | own : Shown S s e (S.snapshot e)
  | rejected (invalid : s.objections (S.snapshot e).input ≠ []) :
      Shown S s e ((S.snapshot e).withError (validationMessage (s.objections (S.snapshot e).input)))

/-- The first critical section of an action broadcasts nothing. If an engine is bound behind it,
then either it was bound before and nothing is going to be broadcast, or one snapshot is, which is
one of this engine. -/
structure Departs (S : Stepper ε) (s : Session ε) (t : Turn ε) : Prop where
  last : t.session.last = s.last
  broadcasts : t.session.broadcasts = s.broadcasts
  validator : t.session.validator = s.validator
  shown : ∀ e, t.session.engine = some e →
    s.engine = some e ∧ t.ahead.filterMap Section.told? = [] ∨
      ∃ snapshot, t.ahead.filterMap Section.told? = [snapshot] ∧ Shown S s e snapshot

variable {S : Stepper ε} {s s' s'' : Session ε} {e : ε} {snapshot : Snapshot}

theorem objections_congr (validator : s'.validator = s.validator) (input : Record) :
    s'.objections input = s.objections input := by
  unfold objections
  rw [validator]

theorem Shown.congr (h : Shown S s e snapshot) (validator : s'.validator = s.validator) :
    Shown S s' e snapshot := by
  have same := objections_congr validator (S.snapshot e).input
  cases h with
  | own => exact .own
  | rejected invalid =>
    rw [← same] at invalid ⊢
    exact .rejected invalid

/-! ## Callers and listeners -/

theorem Silent.trans (h : Silent s s') (h' : Silent s' s'') : Silent s s'' where
  engine := h'.engine.trans h.engine
  last := h'.last.trans h.last
  broadcasts := h'.broadcasts.trans h.broadcasts
  validator := h'.validator.trans h.validator

theorem Outside.refl (s : Session ε) : Outside s s := ⟨⟨rfl, rfl, rfl, rfl⟩, rfl, List.prefix_rfl⟩

theorem Outside.trans (h : Outside s s') (h' : Outside s' s'') : Outside s s'' where
  toSilent := h.toSilent.trans h'.toSilent
  stepping := h'.stepping.trans h.stepping
  queue := h.queue.trans h'.queue

theorem outside_pause (s : Session ε) : Outside s s.pause := by
  unfold pause
  split
  · exact ⟨⟨rfl, rfl, rfl, rfl⟩, rfl, List.prefix_rfl⟩
  · exact ⟨⟨rfl, rfl, rfl, rfl⟩, rfl, List.prefix_rfl⟩

theorem outside_playLimited (s : Session ε) (interval : Nat) (limit : Option Nat) :
    Outside s (s.playLimited interval limit) := by
  unfold playLimited
  split
  · exact .refl s
  · exact ⟨⟨rfl, rfl, rfl, rfl⟩, rfl, List.prefix_rfl⟩

theorem outside_setInterval (s : Session ε) (interval : Nat) :
    Outside s (s.setInterval interval) := by
  unfold setInterval
  split
  · exact s.outside_pause.trans (outside_playLimited _ interval s.limit)
  · exact ⟨⟨rfl, rfl, rfl, rfl⟩, rfl, List.prefix_rfl⟩

theorem outside_subscribe (s : Session ε) (name : String) (listener : Listener) :
    Outside s (s.subscribe name listener) :=
  ⟨⟨rfl, rfl, rfl, rfl⟩, rfl, List.prefix_rfl⟩

theorem outside_unsubscribe (s : Session ε) (name : String) : Outside s (s.unsubscribe name) := by
  unfold unsubscribe
  split
  · exact .refl s
  · exact ⟨⟨rfl, rfl, rfl, rfl⟩, rfl, List.prefix_rfl⟩

theorem outside_react (reactions : List Reaction) (s : Session ε) :
    Outside s (s.react reactions) := by
  induction reactions generalizing s with
  | nil => exact .refl s
  | cons r rest ih =>
    cases r with
    | panic => exact .refl s
    | pause => exact s.outside_pause.trans (ih _)
    | play interval limit => exact (s.outside_playLimited interval limit).trans (ih _)
    | setInterval interval => exact (s.outside_setInterval interval).trans (ih _)
    | subscribe name listener => exact (s.outside_subscribe name listener).trans (ih _)
    | unsubscribe name => exact (s.outside_unsubscribe name).trans (ih _)

theorem outside_called (s : Session ε) (u : Subscriber) (snapshot : Snapshot) :
    Outside s ((s.note (.heard u.id u.name s.playing snapshot)).countCall u.id) :=
  ⟨⟨rfl, rfl, rfl, rfl⟩, rfl, List.prefix_rfl⟩

/-- **Listeners** have no part in what happens to the engine. -/
theorem outside_notify (s : Session ε) (snapshot : Snapshot) : Outside s (s.notify snapshot) := by
  unfold notify
  generalize s.subscribers = us
  induction us generalizing s with
  | nil => exact .refl s
  | cons u us ih => exact (s.outside_called u snapshot).trans ((outside_react _ _).trans (ih _))

theorem outside_enqueue (s : Session ε) (kind : JobKind ε) : Outside s (s.enqueue kind) :=
  ⟨⟨rfl, rfl, rfl, rfl⟩, rfl, List.prefix_append _ _⟩

theorem outside_start (s : Session ε) (tick : Tick) : Outside s (s.start tick) := by
  have taken : Outside s { s with armed := s.armed.filter (·.handle ≠ tick.handle) } :=
    ⟨⟨rfl, rfl, rfl, rfl⟩, rfl, List.prefix_rfl⟩
  unfold start
  dsimp only
  split
  · exact taken.trans (outside_enqueue _ _)
  · exact taken

theorem outside_fire (s : Session ε) (handle : Nat) : Outside s (s.fire handle) := by
  rw [fire_eq]
  split
  · exact .refl s
  · next tick found =>
    have eq : tick.handle = handle := by simpa using List.find?_some found
    subst eq
    exact s.outside_start tick

/-! ## Parts of actions -/

theorem silent_release (s : Session ε) : Silent s s.release := by
  obtain ⟨log, rfl | ⟨job, rfl⟩, eq⟩ := s.exists_release_eq
  · rw [eq]
    exact ⟨rfl, rfl, rfl, rfl⟩
  · rw [eq]
    exact ⟨rfl, rfl, rfl, rfl⟩

theorem silent_settle (s : Session ε) (job : Job ε) (snapshot : Snapshot) :
    Silent s (s.settle job snapshot) := by
  refine s.silent_release.trans ?_
  unfold settle commit
  split
  · split
    · split
      · exact ⟨rfl, rfl, rfl, rfl⟩
      · exact ⟨rfl, rfl, rfl, rfl⟩
    · exact ⟨rfl, rfl, rfl, rfl⟩
  · exact ⟨rfl, rfl, rfl, rfl⟩

theorem silent_shutEngine (S : Stepper ε) (s : Session ε) :
    Silent { s with engine := none } (s.shutEngine S) := by
  unfold shutEngine
  split
  · next none => exact ⟨none, rfl, rfl, rfl⟩
  · exact ⟨rfl, rfl, rfl, rfl⟩

theorem Silent.departs {t : Turn ε} (h : Silent s t.session)
    (nothing : t.ahead.filterMap Section.told? = []) : Departs S s t where
  last := h.last
  broadcasts := h.broadcasts
  validator := h.validator
  shown _ bound := .inl ⟨h.engine.symm.trans bound, nothing⟩

theorem departs_release {t : Session ε} {ahead : List (Section ε)} (last : t.last = s.last)
    (broadcasts : t.broadcasts = s.broadcasts) (validator : t.validator = s.validator)
    (shown : ∀ e, t.engine = some e →
      ∃ snapshot, ahead.filterMap Section.told? = [snapshot] ∧ Shown S s e snapshot) :
    Departs S s ⟨t.release, ahead⟩ where
  last := t.silent_release.last.trans last
  broadcasts := t.silent_release.broadcasts.trans broadcasts
  validator := t.silent_release.validator.trans validator
  shown e bound := .inr (shown e (t.silent_release.engine.symm.trans bound))

theorem told_closing (job : Job ε) (snapshot : Snapshot) :
    (closing job snapshot).filterMap Section.told? = [snapshot] := by
  unfold closing
  cases job.kind <;> rfl

theorem departs_beginStep (S : Stepper ε) (s : Session ε) (job : Job ε) :
    Departs S s (s.beginStep S job) := by
  unfold beginStep
  split
  · next unbound =>
    refine departs_release rfl rfl rfl ?_
    intro e bound
    rw [unbound] at bound
    cases bound
  · next e engine =>
    split
    · exact Silent.departs ⟨rfl, rfl, rfl, rfl⟩ rfl
    · next invalid =>
      refine departs_release rfl rfl rfl ?_
      intro e' bound
      obtain rfl := Option.some.inj (engine.symm.trans bound)
      exact ⟨_, told_closing job _, .rejected invalid⟩

theorem departs_runSetInput (S : Stepper ε) (s : Session ε) (job : Job ε) (input : Record) :
    Departs S s (s.runSetInput S job input) := by
  unfold runSetInput
  split
  · exact s.silent_release.departs rfl
  · refine departs_release rfl rfl rfl ?_
    rintro _ ⟨⟩
    exact ⟨_, rfl, .own⟩

theorem departs_runInit (S : Stepper ε) (s : Session ε) (job : Job ε) (e : ε)
    (input : Option Record) : Departs S s (s.runInit S job e input) := by
  have silent := s.silent_shutEngine S
  refine departs_release silent.last silent.broadcasts silent.validator ?_
  rintro _ ⟨⟩
  exact ⟨_, rfl, .own⟩

theorem departs_runDestroy (S : Stepper ε) (s : Session ε) (job : Job ε) :
    Departs S s (s.runDestroy S job) := by
  have silent := s.silent_shutEngine S
  refine departs_release silent.last silent.broadcasts silent.validator ?_
  intro e bound
  cases silent.engine.symm.trans bound

theorem departs_takeUp (S : Stepper ε) (s : Session ε) : Departs S s (s.takeUp S) := by
  have idle : Departs S s ⟨s, []⟩ := (Outside.refl s).toSilent.departs rfl
  unfold takeUp
  split
  · exact idle
  · next job rest head =>
    split
    · exact idle
    · split
      · exact s.departs_beginStep S job
      · exact s.departs_beginStep S job
      · exact s.departs_runSetInput S job _
      · exact s.departs_runInit S job _ _
      · exact s.departs_runDestroy S job

theorem departs_takeLeave (S : Stepper ε) (s : Session ε) : Departs S s (s.takeLeave S) := by
  have idle : Departs S s ⟨s, []⟩ := (Outside.refl s).toSilent.departs rfl
  unfold takeLeave
  split
  · next job rest e head bound =>
    dsimp only
    split
    · refine departs_release rfl rfl rfl ?_
      rintro _ ⟨⟩
      exact ⟨_, told_closing job _, .own⟩
    · exact idle
  · exact idle

/-- **An action that changes the engine** is going to broadcast a snapshot of it. -/
theorem departs_turn (S : Stepper ε) (s : Session ε) (a : Action ε) :
    Departs S s (s.turn S a) := by
  cases a with
  | play interval limit => exact (s.outside_playLimited interval limit).toSilent.departs rfl
  | playConfig config =>
    exact (s.outside_playLimited config.playbackInterval config.limit).toSilent.departs rfl
  | pause => exact s.outside_pause.toSilent.departs rfl
  | setInterval interval => exact (s.outside_setInterval interval).toSilent.departs rfl
  | subscribe name listener => exact (s.outside_subscribe name listener).toSilent.departs rfl
  | unsubscribe name => exact (s.outside_unsubscribe name).toSilent.departs rfl
  | enter order =>
    cases order with
    | step | setInput => exact (s.outside_enqueue _).toSilent.departs rfl
    | init | destroy => exact s.outside_pause.toSilent.departs rfl
  | fire handle =>
    have taken : Silent s { s with armed := s.armed.filter (·.handle ≠ handle) } :=
      ⟨rfl, rfl, rfl, rfl⟩
    show Departs S s (s.awaken handle)
    unfold awaken
    split
    · exact (Outside.refl s).toSilent.departs rfl
    · dsimp only
      split
      · exact taken.departs rfl
      · exact taken.departs rfl
  | begin => exact s.departs_takeUp S
  | complete => exact s.departs_takeLeave S

/-! ## Every move -/

theorem Move.validator_eq (m : Move S s s') : s'.validator = s.validator := by
  cases m with
  | paused => exact s.outside_pause.validator
  | played interval limit => exact (s.outside_playLimited interval limit).validator
  | unsubscribed name => exact (s.outside_unsubscribe name).validator
  | started => exact (s.outside_start _).validator
  | paced | subscribed | called | ordered | begun | finished => rfl
  | ignored => exact s.silent_release.validator
  | unbound | rejected | completed => exact (silent_settle _ _ _).validator
  | replaced => exact (silent_release _).validator
  | bound => exact (silent_release _).validator.trans (s.silent_shutEngine S).validator
  | removed => exact (silent_release _).validator.trans (s.silent_shutEngine S).validator

end Session

end Cadence
