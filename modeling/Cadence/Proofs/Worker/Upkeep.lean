import Cadence.Module.Native
import Cadence.Proofs.Engine.Attempt
import Cadence.Proofs.Json.Sound
import Cadence.Proofs.Module.AtOnce
import Cadence.Proofs.Worker.Serving

/-!
# What a worker holds is well-formed

A worker reads its inputs from bytes and gets all other values from the functions of its modules.
If these give well-formed values, then so does every step, and after any commands the engine holds
well-formed records only. It has counted at most as many steps as there were commands.

* `Module.Proper`: functions that give well-formed values; `NativeLibrary.proper_module`: a library
  has no others;
* `ModuleCache.Holds`: a property of all modules in a cache;
* `Engine.WellFormed`, **`Engine.WellFormed.step`**: the records of an engine are well-formed;
* `Worker.Handled`, **`Worker.handled`**: all that a command can do;
* `Worker.Kept`, **`Worker.Kept.handleAll`**: the invariant of workers.
-/

namespace Cadence

/-! ## Modules -/

/-- The functions of a module give well-formed values, when their input is well-formed. -/
def Module.Proper (m : Module) : Prop :=
  ∀ name f input v, m.resolve name = some f → input.WellFormed → f input = .ok v → v.WellFormed

theorem NativeReply.wellFormed_outcome {r : NativeReply} {name : String} {v : Json}
    (value : r.outcome name = .ok v) : v.WellFormed := by
  unfold outcome at value
  split at value
  · split at value
    · next read =>
      cases value
      obtain ⟨d, found, read⟩ := Option.bind_eq_some_iff.mp read
      exact (Document.sound_of_read? found).wellFormed read
    · cases value
  · cases value
  · split at value <;> cases value

theorem NativeLibrary.proper_module (lib : NativeLibrary) (location : String) :
    (lib.module location).Proper := by
  intro name f input v resolved _ value
  obtain ⟨symbol, -, resolved⟩ := Option.bind_eq_some_iff.mp resolved
  obtain ⟨g, -, eq⟩ := Option.bind_eq_some_iff.mp resolved
  cases eq
  exact NativeReply.wellFormed_outcome value

namespace ModuleCache

variable {P : Module → Prop} {c : ModuleCache} {source : Source}

/-- All modules that transfers have brought have the property. -/
def Holds (P : Module → Prop) (c : ModuleCache) : Prop :=
  ∀ t m, c.outcome? t = some (.ok m) → P m

theorem Holds.learn (h : c.Holds P) (t : Nat) (o : Loaded) : (c.learn t o).Holds P := by
  intro t' m settled
  unfold outcome? at settled
  rw [transfers_learn] at settled
  exact h t' m settled

theorem Holds.bring (h : c.Holds P) (t : Nat) {o : Loaded} (new : ∀ m, o = .ok m → P m) :
    (c.bring t o).Holds P := by
  intro t' m settled
  by_cases same : t' = t
  · subst same
    by_cases lt : t' < c.started
    · rw [outcome?_bring_self lt] at settled
      exact new m (Option.some.inj settled)
    · have gone : (c.bring t' o).outcome? t' = none := by
        unfold outcome?
        rw [List.getElem?_eq_none]
        · rfl
        · simpa [ModuleCache.bring, settle, started] using lt
      rw [gone] at settled
      cases settled
  · rw [outcome?_bring_of_ne c o same] at settled
    exact h t' m settled

theorem Holds.poll (h : c.Holds P) (t : Nat) {arrived : Option Loaded}
    (new : ∀ m, arrived = some (.ok m) → P m) :
    (c.poll t arrived).1.Holds P ∧ ∀ m, (c.poll t arrived).2 = some (.ok m) → P m := by
  cases outcome : c.outcome? t with
  | some o =>
    rw [poll_settled outcome]
    refine ⟨h.learn t o, fun m eq => h t m ?_⟩
    rw [outcome]
    exact eq
  | none =>
    cases arrived with
    | none =>
      rw [poll_inFlight outcome]
      exact ⟨h, nofun⟩
    | some o =>
      rw [poll_arrived outcome]
      exact ⟨h.bring t fun m eq => new m (congrArg some eq), new⟩

theorem Holds.finish (h : c.Holds P) (t : Nat) {o : Loaded} (new : ∀ m, o = .ok m → P m) :
    (c.finish t o).1.Holds P ∧ ∀ m, (c.finish t o).2 = .ok m → P m := by
  obtain ⟨o', polled, rfl⟩ := c.finish_eq t o
  have looked := h.poll t fun m eq => new m (Option.some.inj eq)
  rw [polled] at looked
  exact ⟨looked.1, fun m eq => looked.2 m (congrArg some eq)⟩

theorem Holds.start (h : c.Holds P) (location : String) : (c.start location).Holds P := by
  intro t m settled
  rw [outcome?_start] at settled
  exact h t m settled

/-- A load brings what the source has or what the cache holds. -/
theorem Holds.load (h : c.Holds P) (sound : ∀ location k m, source location k = .ok m → P m)
    (location : String) :
    (c.load source location).1.Holds P ∧
      ∀ k m, (c.load source location).2 = .ok (k, m) → P m := by
  have transferred {t : Nat} {o : Loaded} (new : ∀ m, o = .ok m → P m) (k : Nat) (m : Module)
      (eq : withTransfer t o = .ok (k, m)) : P m := by
    cases o with
    | error f => cases eq
    | ok m' =>
      cases eq
      exact new _ rfl
  unfold ModuleCache.load
  by_cases named : location = ""
  · subst named
    exact ⟨h, nofun⟩
  cases entry : Entries.get? location c.entries with
  | some t =>
    have finished := h.finish t (sound location (c.ordinal t))
    obtain ⟨o, polled, eq⟩ := c.finish_eq t (c.arrival source location t)
    rw [firstPoll_join named entry, polled, ← eq]
    exact ⟨finished.1, transferred finished.2⟩
  | none =>
    have inFlight : (c.start location).outcome? c.started = none := by
      rw [outcome?_start]
      simp [outcome?, started]
    rw [firstPoll_start named entry, poll_inFlight inFlight]
    have new := sound location ((c.start location).ordinal c.started)
    have finished := (h.start location).finish c.started new
    exact ⟨finished.1, transferred finished.2⟩

end ModuleCache

/-! ## Engines -/

namespace Engine

/-- The module of an engine is proper, and its records are well-formed. -/
structure WellFormed (e : Engine) : Prop where
  module : e.module.Proper
  input : e.input.WellFormed
  outputs : ∀ outputs ∈ e.outputs, outputs.WellFormed

variable {e : Engine}

theorem wellFormed_create {m : Module} (proper : m.Proper) (spec : OutputSpec)
    (config : ExecutionConfig) {input : Record} (read : input.WellFormed) :
    (create m spec config input).WellFormed :=
  ⟨proper, read, nofun⟩

theorem WellFormed.setInput (h : e.WellFormed) {input : Record} (read : input.WellFormed) :
    (e.setInput input).WellFormed :=
  ⟨h.module, read, nofun⟩

theorem WellFormed.setConfig (h : e.WellFormed) (config : ExecutionConfig) :
    (e.setConfig config).WellFormed :=
  ⟨h.module, h.input, h.outputs⟩

theorem wellFormed_callAll {input done results : Record} {fs : List (String × OutputFn)}
    (give : ∀ p ∈ fs, ∀ v, p.2 input = .ok v → v.WellFormed) (h : done.WellFormed)
    (called : (callAll input done fs).result = .ok results) : results.WellFormed := by
  induction fs generalizing done with
  | nil =>
    cases called
    exact h
  | cons p fs ih =>
    obtain ⟨first, others⟩ := List.forall_mem_cons.mp give
    obtain ⟨name, f⟩ := p
    unfold callAll at called
    split at called
    · cases called
    · next v value => exact ih others (h.insert (first v value) name) called

theorem wellFormed_attempt (h : e.WellFormed) (input : e.effectiveInput.WellFormed)
    {results : Record} (attempted : e.attempt.result = .ok results) : results.WellFormed := by
  unfold attempt at attempted
  split at attempted
  · cases attempted
  · next fs resolved =>
    refine wellFormed_callAll (fun p mem v value => ?_) Record.wellFormed_empty attempted
    exact h.module _ p.2 _ v ((resolveAll_ok resolved).2 p mem) input value

theorem wellFormed_feedback {outputs input : Record} (ms : List FeedbackMapping)
    (source : outputs.WellFormed) (h : input.WellFormed) :
    (feedback ms outputs input).WellFormed := by
  induction ms generalizing input with
  | nil => exact h
  | cons m ms ih =>
    have first : (m.apply outputs input).WellFormed := by
      unfold FeedbackMapping.apply
      split
      · next found => exact h.assign (source.lookup? found) _
      · exact h
    exact ih first

theorem stepCount_step_le (e : Engine) : e.step.stepCount ≤ e.stepCount + 1 := by
  cases attempted : e.attempt.result with
  | error fault =>
    rw [step_error attempted]
    exact Nat.le_succ _
  | ok results => exact Nat.le_of_eq (congrArg stepCount (step_ok attempted))

/-- **A step keeps the records of an engine well-formed**, as long as a word can count it. -/
theorem WellFormed.step (h : e.WellFormed) (few : e.stepCount < Word.largest) :
    e.step.WellFormed := by
  have number := Json.wellFormed_nat few
  have input : e.effectiveInput.WellFormed := h.input.insert number _
  cases attempted : e.attempt.result with
  | error fault =>
    rw [step_error attempted]
    exact ⟨h.module, h.input, h.outputs⟩
  | ok results =>
    have outputs : (e.stepOutputs results).WellFormed :=
      (wellFormed_attempt h input attempted).insert number _
    rw [step_ok attempted]
    refine ⟨h.module, wellFormed_feedback _ outputs input, ?_⟩
    rintro _ ⟨⟩
    exact outputs

end Engine

/-! ## Workers -/

namespace Worker

variable {source : ModuleCache.Source} {w : Worker} {n : Nat}

theorem wellFormed_readPayload {bytes : Bytes} {r : Record}
    (read : readPayload Decoder.record bytes = .ok r) : r.WellFormed := by
  unfold readPayload at read
  split at read
  · next found =>
    cases read
    exact Decoder.wellFormed_record found
  · cases read

theorem wellFormed_readBinding {spec config input : Bytes}
    {b : OutputSpec × ExecutionConfig × Record} (read : readBinding spec config input = .ok b) :
    b.2.2.WellFormed := by
  unfold readBinding at read
  cases first : readPayload OutputSpec.decoder spec with
  | error f => rw [first] at read; cases read
  | ok s =>
    cases second : readPayload ExecutionConfig.decoder config with
    | error f => rw [first, second] at read; cases read
    | ok c =>
      cases third : readPayload Decoder.record input with
      | error f => rw [first, second, third] at read; cases read
      | ok r =>
        rw [first, second, third] at read
        cases read
        exact wellFormed_readPayload third

/-- What comes of a command: the worker and its reply. A worker without an engine, a payload that
cannot be read, a ping and a shutdown leave the worker as it is. -/
inductive Handled (source : ModuleCache.Source) (w : Worker) : Command → Worker × Reply → Prop
  | idle {c : Command} {reply : Reply} (untold : ∀ text, reply ≠ .snapshot text) :
      Handled source w c (w, reply)
  | unloaded {location : String} {spec config input : Bytes} {cache : ModuleCache} {f : LoadFault}
      (loaded : w.cache.load source location = (cache, .error f)) :
      Handled source w (.init location spec config input) ({ w with cache }, refusal (.load f))
  | bound {location : String} {spec config input : Bytes} {s : OutputSpec} {g : ExecutionConfig}
      {r : Record} {cache : ModuleCache} {k : Nat} {m : Module}
      (read : readBinding spec config input = .ok (s, g, r))
      (loaded : w.cache.load source location = (cache, .ok (k, m))) :
      Handled source w (.init location spec config input)
        (⟨cache, some (Engine.create m s g r)⟩, .ofSnapshot (Engine.create m s g r).snapshot)
  | fed {e : Engine} {input : Bytes} {r : Record} (engine : w.engine = some e)
      (read : readPayload Decoder.record input = .ok r) :
      Handled source w (.setInput input)
        ({ w with engine := some (e.setInput r) }, .ofSnapshot (e.setInput r).snapshot)
  | configured {e : Engine} {config : Bytes} {g : ExecutionConfig} (engine : w.engine = some e)
      (read : readPayload ExecutionConfig.decoder config = .ok g) :
      Handled source w (.setConfig config) ({ w with engine := some (e.setConfig g) }, .ack)
  | stepped {e : Engine} (engine : w.engine = some e) :
      Handled source w .step ({ w with engine := some e.step }, .ofSnapshot e.step.snapshot)

section

variable {f : Engine → Except Fault (Engine × Reply)} {e e' : Engine} {reply : Reply}

theorem onEngine_none (unbound : w.engine = none) : w.onEngine f = (w, notInitialized) := by
  unfold onEngine
  rw [unbound]

theorem onEngine_error (engine : w.engine = some e) {fault : Fault} (fails : f e = .error fault) :
    w.onEngine f = (w, refusal fault) := by
  unfold onEngine
  rw [engine]
  dsimp only
  rw [fails]

theorem onEngine_ok (engine : w.engine = some e) (done : f e = .ok (e', reply)) :
    w.onEngine f = ({ w with engine := some e' }, reply) := by
  unfold onEngine
  rw [engine]
  dsimp only
  rw [done]

end

/-- **What a command does**, one case for each of its outcomes. -/
theorem handled (w : Worker) (source : ModuleCache.Source) (c : Command) :
    Handled source w c (w.handle source c) := by
  cases c with
  | init location spec config input =>
    show Handled source w _ (w.bindFresh source location spec config input)
    unfold bindFresh
    cases read : readBinding spec config input with
    | error f => exact .idle nofun
    | ok b =>
      cases loaded : w.cache.load source location with
      | mk cache result =>
        cases result with
        | error f => exact .unloaded loaded
        | ok p => exact .bound read loaded
  | setInput input =>
    show Handled source w _ (w.onEngine _)
    cases engine : w.engine with
    | none =>
      rw [onEngine_none engine]
      exact .idle nofun
    | some e =>
      cases read : readPayload Decoder.record input with
      | error f =>
        rw [onEngine_error engine rfl]
        exact .idle nofun
      | ok r =>
        rw [onEngine_ok engine rfl]
        exact .fed engine read
  | setConfig config =>
    show Handled source w _ (w.onEngine _)
    cases engine : w.engine with
    | none =>
      rw [onEngine_none engine]
      exact .idle nofun
    | some e =>
      cases read : readPayload ExecutionConfig.decoder config with
      | error f =>
        rw [onEngine_error engine rfl]
        exact .idle nofun
      | ok g =>
        rw [onEngine_ok engine rfl]
        exact .configured engine read
  | step =>
    show Handled source w _ (w.onEngine fun e => .ok (shown e.step))
    cases engine : w.engine with
    | none =>
      rw [onEngine_none engine]
      exact .idle nofun
    | some e =>
      rw [onEngine_ok engine rfl]
      exact .stepped engine
  | ping | shutdown => exact .idle nofun

/-- The modules of a worker are proper, and its engine is well-formed and has not counted beyond
`n`. -/
structure Kept (n : Nat) (w : Worker) : Prop where
  cache : w.cache.Holds Module.Proper
  engine : ∀ e ∈ w.engine, e.WellFormed ∧ e.stepCount ≤ n

theorem Kept.mono (h : Kept n w) {k : Nat} (le : n ≤ k) : Kept k w :=
  ⟨h.cache, fun e mem => ⟨(h.engine e mem).1, Nat.le_trans (h.engine e mem).2 le⟩⟩

theorem Kept.rebind (h : Kept n w) {k : Nat} {e : Engine} (wellFormed : e.WellFormed)
    (count : e.stepCount ≤ k) : Kept k { w with engine := some e } := by
  refine ⟨h.cache, ?_⟩
  rintro _ ⟨⟩
  exact ⟨wellFormed, count⟩

theorem Kept.handle (h : Kept n w)
    (proper : ∀ location k m, source location k = .ok m → m.Proper) (few : n < Word.largest)
    (c : Command) : Kept (n + 1) (w.handle source c).1 := by
  obtain handled := w.handled source c
  generalize w.handle source c = answer at handled
  cases handled with
  | idle => exact h.mono (Nat.le_succ n)
  | @unloaded location _ _ _ cache f loaded =>
    have brought := h.cache.load proper location
    rw [loaded] at brought
    exact ⟨brought.1, (h.mono (Nat.le_succ n)).engine⟩
  | @bound location _ _ _ s g r cache k m read loaded =>
    have brought := h.cache.load proper location
    rw [loaded] at brought
    refine ⟨brought.1, ?_⟩
    rintro _ ⟨⟩
    have fresh := Engine.wellFormed_create (brought.2 k m rfl) s g (wellFormed_readBinding read)
    exact ⟨fresh, Nat.zero_le _⟩
  | fed engine read =>
    obtain ⟨wellFormed, le⟩ := h.engine _ engine
    exact h.rebind (wellFormed.setInput (wellFormed_readPayload read)) (Nat.le_succ_of_le le)
  | configured engine =>
    obtain ⟨wellFormed, le⟩ := h.engine _ engine
    exact h.rebind (wellFormed.setConfig _) (Nat.le_succ_of_le le)
  | @stepped e engine =>
    obtain ⟨wellFormed, le⟩ := h.engine e engine
    have count := e.stepCount_step_le
    exact h.rebind (wellFormed.step (Nat.lt_of_le_of_lt le few)) (by omega)

/-- **Commands keep the invariant**, unless there are more than a word can count. -/
theorem Kept.handleAll (h : Kept n w)
    (proper : ∀ location k m, source location k = .ok m → m.Proper) {cs : List Command}
    (few : n + cs.length ≤ Word.largest) :
    Kept (n + cs.length) (w.handleAll source cs).1 := by
  induction cs generalizing w n with
  | nil => exact h
  | cons c cs ih =>
    rw [List.length_cons] at few ⊢
    have first := h.handle proper (by omega) c
    have rest := ih first (by omega)
    rwa [Nat.add_assoc, Nat.add_comm 1] at rest

end Worker

end Cadence
