import Cadence.Proofs.Engine.Calls
import Cadence.Proofs.Worker.Hosting
import Mathlib

/-!
# Proxies and engines

A proxy shows the snapshots of an engine that it does not hold. Between two steps the worker's
engine lags behind what the proxy shows, by the commands that wait in the courier's inbox.

* `EngineCall.Decodes`: the texts that travel for a call can be read back;
* `Link.Mirrors`: the invariant that ties a proxy to an engine here;
* **`Proxy.reports_eq`**: a proxy of a live worker reports what the engine here reports.
-/

namespace Cadence

namespace EngineCall

/-- The text of a snapshot can be read back. -/
def Readable (s : Snapshot) : Prop := Snapshot.decoder.run s.toJson.payload = some s

/-- The texts that travel for a call, and that somebody reads, can be read back. -/
def Decodes (e : Engine) : EngineCall → Prop
  | .step => Readable e.step.snapshot
  | .setInput input => Decoder.record.run (Json.ofRecord input).payload = some input
  | .setConfig config => ExecutionConfig.decoder.run config.toJson.payload = some config
  | .snapshot => True

/-- Something holds of every call of a run. -/
def Along (P : Engine → EngineCall → Prop) (e : Engine) : List EngineCall → Prop
  | [] => True
  | call :: calls => P e call ∧ Along P (Engine.stepper.after e call) calls

/-- The command that a proxy sends for a call. -/
def command? : EngineCall → Option Command
  | .step => some .step
  | .setInput input => some (.setInputTo input)
  | .setConfig config => some (.setConfigTo config)
  | .snapshot => none

/-- The reply of a worker with this engine. -/
def reply (e : Engine) : EngineCall → Reply
  | .step => .ofSnapshot e.step.snapshot
  | .setInput input => .ofSnapshot (e.setInput input).snapshot
  | .setConfig _ => .ack
  | .snapshot => .ofSnapshot e.snapshot

/-- The command of a call and its reply are carried in frames. -/
def Framed (wire : Wire) (e : Engine) (call : EngineCall) : Prop :=
  ∀ c ∈ call.command?,
    Frame.Carried wire.commands c ∧ Frame.Carried wire.replies (call.reply e)

end EngineCall

variable {wire : Wire} {source : ModuleCache.Source}

theorem Worker.handle_call {w : Worker} {e : Engine} (engine : w.engine = some e)
    {call : EngineCall} (decodes : call.Decodes e) {c : Command} (command : c ∈ call.command?) :
    w.handle source c =
      ({ w with engine := some (Engine.stepper.after e call) }, call.reply e) := by
  cases call with
  | step =>
    cases command
    unfold handle onEngine
    rw [engine]
    rfl
  | setInput input =>
    cases command
    unfold handle Command.setInputTo onEngine
    dsimp only
    rw [engine]
    unfold readPayload
    rw [decodes]
    rfl
  | setConfig config =>
    cases command
    unfold handle Command.setConfigTo onEngine
    dsimp only
    rw [engine]
    unfold readPayload
    rw [decodes]
    rfl
  | snapshot => cases command

/-- What is bound to a fresh engine can be read back from its texts. -/
structure Worker.BindingDecodes (spec : OutputSpec) (config : ExecutionConfig) (input : Record) :
    Prop where
  spec : OutputSpec.decoder.run spec.toJson.payload = some spec
  config : ExecutionConfig.decoder.run config.toJson.payload = some config
  input : Decoder.record.run (Json.ofRecord input).payload = some input

theorem Worker.handle_initWith {w : Worker} {location : String} {spec : OutputSpec}
    {config : ExecutionConfig} {input : Record} {k : Nat} {m : Module}
    (loaded : (w.cache.load source location).2 = .ok (k, m))
    (decodes : BindingDecodes spec config input) :
    w.handle source (.initWith location spec config input) =
      (⟨(w.cache.load source location).1, some (Engine.create m spec config input)⟩,
        .ofSnapshot (Engine.create m spec config input).snapshot) := by
  have read : readBinding spec.toJson.payload config.toJson.payload (Json.ofRecord input).payload =
      .ok (spec, config, input) := by
    unfold readBinding readPayload
    rw [decodes.spec, decodes.config, decodes.input]
    rfl
  unfold handle Command.initWith bindFresh
  dsimp only
  rw [read]
  dsimp only
  rw [show w.cache.load source location = ((w.cache.load source location).1, .ok (k, m)) by
    rw [← loaded]]
  rfl

theorem EngineCall.command_ne_shutdown {call : EngineCall} {c : Command}
    (command : c ∈ call.command?) : c ≠ .shutdown := by
  cases call with
  | step | setInput | setConfig => cases command; exact nofun
  | snapshot => cases command

theorem Reply.snapshot?_ofSnapshot {s : Snapshot} (readable : EngineCall.Readable s) :
    (Reply.ofSnapshot s).snapshot? = .ok s := by
  unfold ofSnapshot snapshot? readSnapshot
  dsimp only
  rw [readable]

theorem Proxy.seenAfter_ofSnapshot {s : Snapshot} (readable : EngineCall.Readable s)
    (last : Snapshot) : seenAfter last (.ok (.ofSnapshot s)) = s := by
  have read := Reply.snapshot?_ofSnapshot readable
  unfold Reply.ofSnapshot at read ⊢
  unfold seenAfter
  dsimp only
  rw [read]

/-! ## The mirror -/

namespace Link

variable {σ : Type} {L : Link source σ}

/-- The proxy shows the engine's snapshot, and the worker behind it will hold this engine when it
has caught up with the commands that wait. -/
structure Mirrors (L : Link source σ) (p : Proxy σ) (e : Engine) : Prop where
  linked : p.linked = true
  running : p.courier.stopped = false
  seen : p.lastSeen = e.snapshot
  behind : ∃ w w', L.hosts p.courier.channel w ∧ L.Passing w p.courier.inbox w' ∧
    w'.engine = some e

/-- A call gets through to a worker with this engine. -/
def Passes (L : Link source σ) (e : Engine) (call : EngineCall) : Prop :=
  ∀ w : Worker, w.engine = some e → ∀ c ∈ call.command?, L.passes w c

variable {p : Proxy σ} {e : Engine}

theorem Mirrors.post_eq (h : L.Mirrors p e) (c : Command) :
    p.post c = { p with courier := { p.courier with inbox := p.courier.inbox ++ [c] } } := by
  unfold Proxy.post Courier.post
  rw [if_pos h.linked, if_neg (by simp [h.running])]

/-- A command that waits takes the worker on when it catches up. -/
theorem Mirrors.wait (h : L.Mirrors p e) (call : EngineCall) {c : Command}
    (command : c ∈ call.command?) (passes : L.Passes e call) (decodes : call.Decodes e)
    {seen : Snapshot} (next : seen = (Engine.stepper.after e call).snapshot) :
    L.Mirrors
      { p with
        courier := { p.courier with inbox := p.courier.inbox ++ [c] }
        lastSeen := seen }
      (Engine.stepper.after e call) := by
  obtain ⟨w, w', host, passing, engine⟩ := h.behind
  refine ⟨h.linked, h.running, next, w, (w'.handle source c).1, host, ?_, ?_⟩
  · exact passing.snoc (passes w' engine c command) (EngineCall.command_ne_shutdown command)
  · rw [Worker.handle_call engine decodes command]

theorem Mirrors.step (h : L.Mirrors p e) (passes : L.Passes e .step)
    (readable : EngineCall.Readable e.step.snapshot) : L.Mirrors (p.step L.channel) e.step := by
  obtain ⟨w, w', host, passing, engine⟩ := h.behind
  have handled : w'.handle source .step =
      ({ w' with engine := some e.step }, .ofSnapshot e.step.snapshot) :=
    Worker.handle_call engine (show EngineCall.Decodes e .step from readable) rfl
  obtain ⟨s', requested, host'⟩ := L.request h.running host passing
    (passes w' engine .step rfl) nofun
  rw [handled] at requested host'
  have asked : p.request L.channel .step =
      ({ p with courier := { channel := s' } }, .ok (.ofSnapshot e.step.snapshot)) := by
    unfold Proxy.request
    rw [if_pos h.linked, requested]
  have stepped : p.step L.channel =
      { p with courier := { channel := s' }, lastSeen := e.step.snapshot } := by
    unfold Proxy.step
    rw [asked]
    dsimp only
    rw [Proxy.seenAfter_ofSnapshot readable]
  rw [stepped]
  exact ⟨h.linked, rfl, rfl, { w' with engine := some e.step }, _, host', .nil _, rfl⟩

/-- **One call.** The proxy goes on mirroring the engine. -/
theorem Mirrors.after (h : L.Mirrors p e) {call : EngineCall} (passes : L.Passes e call)
    (decodes : call.Decodes e) :
    L.Mirrors ((Proxy.stepper L.channel).after p call) (Engine.stepper.after e call) := by
  cases call with
  | step => exact h.step passes decodes
  | setInput input =>
    -- the proxy shows the new input at once, and the worker is told when the next step is asked for
    have next : (⟨p.lastSeen.stepCount, input, none, none⟩ : Snapshot) =
        (e.setInput input).snapshot := by
      rw [h.seen]
      rfl
    show L.Mirrors (p.setInput input) _
    unfold Proxy.setInput
    rw [h.post_eq]
    exact h.wait (.setInput input) rfl passes decodes next
  | setConfig config =>
    show L.Mirrors (p.setConfig config) _
    unfold Proxy.setConfig
    rw [h.post_eq]
    exact h.wait (.setConfig config) rfl passes decodes h.seen
  | snapshot => exact h

/-- **A run of calls.** The proxy reports what the engine reports. -/
theorem Mirrors.run (h : L.Mirrors p e) {calls : List EngineCall}
    (decodes : EngineCall.Along EngineCall.Decodes e calls)
    (passes : EngineCall.Along L.Passes e calls) :
    (Proxy.stepper L.channel).reports p calls = Engine.stepper.reports e calls := by
  induction calls generalizing p e with
  | nil => rfl
  | cons call calls ih =>
    have next := h.after passes.1 decodes.1
    unfold Stepper.reports
    rw [ih next decodes.2 passes.2]
    exact congrArg (· :: _) next.seen

/-! ## From the start -/

theorem start {s : σ} {w : Worker} {location : String} {spec : OutputSpec}
    {config : ExecutionConfig} {input : Record} {k : Nat} {m : Module} (host : L.hosts s w)
    (loaded : (w.cache.load source location).2 = .ok (k, m))
    (decodes : Worker.BindingDecodes spec config input)
    (readable : EngineCall.Readable (Engine.create m spec config input).snapshot)
    (passes : L.passes w (.initWith location spec config input)) :
    ∃ p, Proxy.start L.channel s location spec config input = (p, none) ∧
      L.Mirrors p (Engine.create m spec config input) := by
  obtain ⟨s', requested, host'⟩ :=
    L.request (k := { channel := s }) rfl host (.nil w) passes nofun
  rw [Worker.handle_initWith loaded decodes] at requested host'
  have mirrors : L.Mirrors
      { courier := { channel := s' }, lastSeen := (Engine.create m spec config input).snapshot }
      (Engine.create m spec config input) :=
    ⟨rfl, rfl, rfl, _, _, host', .nil _, rfl⟩
  refine ⟨_, ?_, mirrors⟩
  unfold Proxy.start Proxy.request
  dsimp only
  rw [if_pos rfl, requested]
  dsimp only
  rw [Reply.snapshot?_ofSnapshot readable]

/-- **A proxy over a link.** It starts, and reports what the engine reports. -/
theorem start_reports {s : σ} {w : Worker} {location : String} {spec : OutputSpec}
    {config : ExecutionConfig} {input : Record} {k : Nat} {m : Module} (host : L.hosts s w)
    (loaded : (w.cache.load source location).2 = .ok (k, m))
    (decodes : Worker.BindingDecodes spec config input)
    (readable : EngineCall.Readable (Engine.create m spec config input).snapshot)
    (passes : L.passes w (.initWith location spec config input)) {calls : List EngineCall}
    (callsDecode : EngineCall.Along EngineCall.Decodes (Engine.create m spec config input) calls)
    (callsPass : EngineCall.Along L.Passes (Engine.create m spec config input) calls) :
    ∃ p, Proxy.start L.channel s location spec config input = (p, none) ∧
      p.snapshot = (Engine.create m spec config input).snapshot ∧
      (Proxy.stepper L.channel).reports p calls =
        Engine.stepper.reports (Engine.create m spec config input) calls := by
  obtain ⟨p, started, mirrors⟩ := L.start host loaded decodes readable passes
  exact ⟨p, started, mirrors.seen, mirrors.run callsDecode callsPass⟩

end Link

/-! ## Threads and processes -/

theorem EngineCall.Along.mono {P Q : Engine → EngineCall → Prop} {e : Engine}
    {calls : List EngineCall} (h : Along P e calls)
    (imp : ∀ {e call}, P e call → Q e call) : Along Q e calls := by
  induction calls generalizing e with
  | nil => trivial
  | cons call calls ih => exact ⟨imp h.1, ih h.2⟩

theorem EngineCall.Along.and {P Q : Engine → EngineCall → Prop} {e : Engine}
    {calls : List EngineCall} (hP : Along P e calls) (hQ : Along Q e calls) :
    Along (fun e call => P e call ∧ Q e call) e calls := by
  induction calls generalizing e with
  | nil => trivial
  | cons call calls ih => exact ⟨⟨hP.1, hQ.1⟩, ih hP.2 hQ.2⟩

theorem EngineCall.along_of_forall {P : Engine → EngineCall → Prop} (h : ∀ e call, P e call)
    (e : Engine) (calls : List EngineCall) : Along P e calls := by
  induction calls generalizing e with
  | nil => trivial
  | cons call calls ih => exact ⟨h e call, ih _⟩

theorem EngineCall.upcoming?_eq_none {call : EngineCall} {c : Command}
    (command : c ∈ call.command?) (w : Worker) : w.upcoming? c = none := by
  cases call with
  | step | setInput | setConfig => cases command; rfl
  | snapshot => cases command

theorem WorkerThread.passes_calls {fatal : String → Nat → Bool} (e : Engine) (call : EngineCall) :
    (link source fatal).Passes e call := by
  intro w _ c command u mem
  rw [EngineCall.upcoming?_eq_none command w] at mem
  cases mem

theorem WorkerProcess.passes_framed {e : Engine} {call : EngineCall}
    (h : call.Decodes e ∧ call.Framed wire e) : (link wire source).Passes e call := by
  intro w engine c command
  show _ ∧ _
  rw [Worker.handle_call engine h.1 command]
  exact h.2 c command

theorem WorkerThread.passes_initWith {fatal : String → Nat → Bool} {location : String}
    (calm : ∀ n, fatal location n = false) (w : Worker) (spec : OutputSpec)
    (config : ExecutionConfig) (input : Record) :
    (link source fatal).passes w (.initWith location spec config input) := by
  intro u mem
  unfold Worker.upcoming? Command.initWith at mem
  dsimp only at mem
  split at mem
  · cases mem
    exact calm _
  · cases mem

/-- **A proxy reports what an engine here reports.** Let a live worker be able to load the module of
a location, and let every text and frame that travels be read back as what was sent. Then a proxy
starts over the worker's thread, or over its process, and after every call of a run it shows the
snapshot that an engine made of the same arguments shows. -/
theorem Proxy.reports_eq (wire : Wire) (source : ModuleCache.Source)
    (fatal : String → Nat → Bool) (w : Worker) (location : String) (spec : OutputSpec)
    (config : ExecutionConfig) (input : Record) (k : Nat) (m : Module) (calls : List EngineCall)
    (loaded : (w.cache.load source location).2 = .ok (k, m))
    (decodes : Worker.BindingDecodes spec config input)
    (readable : EngineCall.Readable (Engine.create m spec config input).snapshot)
    (callsDecode : EngineCall.Along EngineCall.Decodes (Engine.create m spec config input) calls) :
    let e := Engine.create m spec config input
    ((∀ n, fatal location n = false) →
      let ch := WorkerThread.channel source fatal
      ∃ p, start ch { worker := w } location spec config input = (p, none) ∧
        p.snapshot = e.snapshot ∧ (stepper ch).reports p calls = Engine.stepper.reports e calls) ∧
    (Frame.Carried wire.commands (.initWith location spec config input) →
      Frame.Carried wire.replies (.ofSnapshot e.snapshot) →
      EngineCall.Along (EngineCall.Framed wire) e calls →
      let ch := WorkerProcess.channel wire source
      ∃ p, start ch { child := .hosting w } location spec config input = (p, none) ∧
        p.snapshot = e.snapshot ∧
        (stepper ch).reports p calls = Engine.stepper.reports e calls) := by
  intro e
  refine ⟨fun calm => ?_, fun sent returned framed => ?_⟩
  · exact (WorkerThread.link source fatal).start_reports rfl loaded decodes readable
      (WorkerThread.passes_initWith calm w spec config input) callsDecode
      (EngineCall.along_of_forall WorkerThread.passes_calls e calls)
  · have passes :
        (WorkerProcess.link wire source).passes w (.initWith location spec config input) := by
      refine ⟨sent, ?_⟩
      rw [Worker.handle_initWith loaded decodes]
      exact returned
    exact (WorkerProcess.link wire source).start_reports rfl loaded decodes readable passes
      callsDecode ((callsDecode.and framed).mono WorkerProcess.passes_framed)

/-! ## A run with a panic -/

/-- A module of one output, which panics if the input has a field `stop`. -/
def stopModule : Module where
  location := "m"
  resolve _ := some fun r => if r.contains "stop" then .error (.panicked none) else .ok .null

/-- Its output. -/
def stopSpec : OutputSpec := Dict.ofList [("y", {})]

/-- An input that makes it panic. -/
def stopInput : Record := Dict.ofList [("stop", .null)]

/-- A step, and another one that panics. -/
def stopCalls : List EngineCall := [.step, .setInput stopInput, .step]

theorem stopCalls_decode :
    EngineCall.Along EngineCall.Decodes (Engine.create stopModule stopSpec .single .empty)
      stopCalls := by
  refine ⟨?_, ?_, ?_, trivial⟩
  · show Snapshot.decoder.run _ = _
    cbv
  · show Decoder.record.run _ = _
    cbv
  · show EngineCall.Readable (((Engine.create stopModule stopSpec .single .empty).step.setInput
      stopInput).step.snapshot)
    rw [show ((Engine.create stopModule stopSpec .single .empty).step.setInput
      stopInput).step.snapshot =
        ⟨1, stopInput, none, some "Execution failed for 'y': output function panicked"⟩ from rfl]
    show Snapshot.decoder.run _ = _
    cbv

theorem stopCalls_framed :
    EngineCall.Along (EngineCall.Framed .packed) (Engine.create stopModule stopSpec .single .empty)
      stopCalls := by
  refine ⟨?_, ?_, ?_, trivial⟩
  all_goals
    rintro _ ⟨⟩
    exact ⟨Frame.carried_of_length_le (by decide +kernel),
      Frame.carried_of_length_le (by decide +kernel)⟩

/-- Over a thread and over a process, the run with the panic is reported as here. -/
theorem Proxy.reports_stopCalls :
    let source : ModuleCache.Source := fun _ _ => .ok stopModule
    let thread := WorkerThread.channel source fun _ _ => false
    let process := WorkerProcess.channel .packed source
    let e := Engine.create stopModule stopSpec .single .empty
    (∃ p, start thread {} "m" stopSpec .single .empty = (p, none) ∧ p.snapshot = e.snapshot ∧
      (stepper thread).reports p stopCalls = Engine.stepper.reports e stopCalls) ∧
    ∃ p, start process { child := .hosting {} } "m" stopSpec .single .empty = (p, none) ∧
      p.snapshot = e.snapshot ∧
      (stepper process).reports p stopCalls = Engine.stepper.reports e stopCalls := by
  intro source thread process e
  have readable : EngineCall.Readable e.snapshot := by
    show Snapshot.decoder.run _ = _
    cbv
  obtain ⟨overThread, overProcess⟩ :=
    reports_eq .packed source (fun _ _ => false) {} "m" stopSpec .single .empty 0 stopModule
      stopCalls rfl ⟨by cbv, by cbv, by cbv⟩ readable stopCalls_decode
  exact ⟨overThread fun _ => rfl, overProcess (Frame.carried_of_length_le (by decide +kernel))
    (Frame.carried_of_length_le (by decide +kernel)) stopCalls_framed⟩

end Cadence
