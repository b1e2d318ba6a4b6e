import Cadence.CommandLine.Execution
import Cadence.Proofs.Playback.Playthrough
import Cadence.Proofs.Worker.Elsewhere

/-!
# What a run prints

What is run determines what playing prints and how it ends. How it is run does not matter: neither
the scheduler with its frame rate, nor the time between steps, nor the process of the engine.

* `Assembly`: what is run; `Setup`: how it is run;
* `Assembly.Travels`: what goes to a worker and comes back is read as it was sent;
* `Setup.Names`, `Setup.Opens`: a setup whose files hold an assembly, and opens a session for it;
* `Machine.eq_hosting_of_startWorker`: a worker that has started is fresh;
* `Setup.Names.opens`: what is needed to open;
* `Setup.Opens.exists_bench_under`, `Setup.Opens.exists_bench`: the engine that is bound shows what
  an engine here shows;
* **`Setup.prints_trials`**: every setup prints the trials of what is run.
-/

namespace Cadence

/-- What is run: a module, the outputs to compute, a configuration, an input and its form. -/
structure Assembly where
  module : Module
  spec : OutputSpec
  config : ExecutionConfig
  input : Record
  form : Option FormSchema

namespace Assembly

/-- The engine at the start. -/
def engine (g : Assembly) : Engine := .create g.module g.spec g.config g.input

/-- What the form has against inputs. -/
def validator (g : Assembly) : Option (Record → List FieldError) := g.form.map FormSchema.check

/-- The snapshot of the attempt to make the step behind the first `j`. -/
def trial (g : Assembly) (j : Nat) : Snapshot := Engine.stepper.trial g.validator g.engine j

/-- What goes to a worker and comes back in the first `n` attempts is read as it was sent. -/
structure Travels (g : Assembly) (wire : Wire) (artifact : String) (n : Nat) : Prop where
  binding : Worker.BindingDecodes g.spec g.config g.input
  first : EngineCall.Readable g.engine.snapshot
  sent : Frame.Carried wire.commands (.initWith artifact g.spec g.config g.input)
  returned : Frame.Carried wire.replies (.ofSnapshot g.engine.snapshot)
  steps : g.engine.Travels wire g.validator n

end Assembly

/-- How something is run: on a machine, under the settings found there, by a command line. -/
structure Setup where
  machine : Machine
  settings : Settings
  config : Option String := none
  verbose : Bool := false
  engine : EngineArguments
  interval : Option Nat := none
  scheduler : Option SchedulerKind := none

namespace Setup

/-- The command line, for a number of iterations. -/
def arguments (r : Setup) (iterations : Option Nat) : Arguments where
  config := r.config
  verbose := r.verbose
  task := .run r.engine iterations r.interval r.scheduler

/-- The settings with the scheduler that the command line asks for. -/
def chosen (r : Setup) : Settings :=
  { r.settings with scheduler := r.scheduler.getD r.settings.scheduler }

/-- The engine has a process of its own. -/
def isIsolated (r : Setup) : Bool := r.engine.isolated || r.settings.isolated

/-- The modules that can be loaded in the process of the engine. -/
def source (r : Setup) : ModuleCache.Source :=
  if r.isIsolated then r.machine.workerSource else r.machine.source r.chosen

/-- The files that the setup names hold the parts of the assembly, and its module is the one that
the process of the engine loads. -/
structure Names (r : Setup) (iterations : Option Nat) (g : Assembly) : Prop where
  settings : (r.arguments iterations).settings r.machine = .ok r.settings
  spec : Workbench.readFile r.machine OutputSpec.decoder "output spec" r.engine.outputs = .ok g.spec
  config : (Workbench.readOptional r.machine ExecutionConfig.decoder "execution config"
    r.engine.execution).map (·.getD .single) = .ok g.config
  input : (Workbench.readOptional r.machine Decoder.record "input" r.engine.input).map
    (·.getD .empty) = .ok g.input
  form : Workbench.readOptional r.machine FormSchema.decoder "input schema" r.engine.form =
    .ok g.form
  module : ∃ k, (({} : ModuleCache).load r.source r.engine.artifact).2 = .ok (k, g.module)

/-- The setup opens a session for the assembly. -/
structure Opens (r : Setup) (iterations : Option Nat) (g : Assembly) : Prop
    extends Names r iterations g where
  opened : ∃ w, Workbench.prepare r.machine r.chosen r.engine = .ok w

end Setup

/-! ## Opening -/

theorem exists_of_map_eq_ok {α β φ : Type} {x : Except φ α} {f : α → β} {b : β}
    (mapped : x.map f = .ok b) : ∃ a, x = .ok a ∧ f a = b := by
  cases x with
  | error fault => cases mapped
  | ok a => exact ⟨a, rfl, Except.ok.inj mapped⟩

theorem exists_of_bind_eq_ok {α β φ : Type} {x : Except φ α} {f : α → Except φ β} {b : β}
    (bound : x >>= f = .ok b) : ∃ a, x = .ok a ∧ f a = .ok b := by
  cases x with
  | error fault => cases bound
  | ok a => exact ⟨a, rfl, bound⟩

theorem exists_of_mapError_eq_ok {α φ ψ : Type} {x : Except φ α} {f : φ → ψ} {a : α}
    (mapped : x.mapError f = .ok a) : x = .ok a := by
  cases x with
  | error fault => cases mapped
  | ok a =>
    cases mapped
    rfl

theorem WorkerProcess.spawn_hosting (wire : Wire) (source : ModuleCache.Source) (path : String) :
    spawn wire source path (.ok (.hosting {})) = .ok { child := .hosting {} } := by
  have ping := Frame.carried_of_length_le wire.ping_le
  have pong := Frame.carried_of_length_le wire.pong_le
  unfold spawn
  dsimp only
  rw [call_hosting (w := {}) ping pong nofun]
  rfl

theorem WorkerProcess.exists_spawn_gone (wire : Wire) (source : ModuleCache.Source)
    (path : String) : ∃ f, spawn wire source path (.ok .gone) = .error f := by
  unfold spawn call
  dsimp only
  rw [if_neg (by simp)]
  cases Frame.write wire.commands .ping with
  | error f => exact ⟨f, rfl⟩
  | ok frame => exact ⟨_, rfl⟩

theorem Machine.eq_hosting_of_startWorker {m : Machine} {s : Settings} {p : WorkerProcess}
    (started : m.startWorker s = .ok p) : p = { child := .hosting {} } := by
  obtain ⟨path, -, spawned⟩ := exists_of_bind_eq_ok started
  cases launched : m.files.launch (Utf8.encode path) with
  | error cause =>
    rw [launched] at spawned
    cases spawned
  | ok _ =>
    rw [launched] at spawned
    cases found : m.workerSettings.isOk with
    | false =>
      obtain ⟨f, gone⟩ := WorkerProcess.exists_spawn_gone m.wire m.workerSource path
      simp only [found, Except.mapError, Except.map] at spawned
      cases gone.symm.trans spawned
    | true =>
      simp only [found, Except.mapError, Except.map, if_true] at spawned
      rw [WorkerProcess.spawn_hosting] at spawned
      exact (Except.ok.inj spawned).symm

theorem Assembly.Travels.exists_proxy {g : Assembly} {wire : Wire} {artifact : String} {n k : Nat}
    {source : ModuleCache.Source} (h : g.Travels wire artifact n)
    (loaded : (({} : ModuleCache).load source artifact).2 = .ok (k, g.module)) :
    ∃ p, Proxy.start (WorkerProcess.channel wire source) { child := .hosting {} } artifact g.spec
        g.config g.input = (p, none) ∧ (WorkerProcess.link wire source).Mirrors p g.engine := by
  have passes : (WorkerProcess.link wire source).passes {}
      (.initWith artifact g.spec g.config g.input) := by
    refine ⟨h.sent, ?_⟩
    rw [Worker.handle_initWith loaded h.binding]
    exact h.returned
  exact (WorkerProcess.link wire source).start rfl loaded h.binding h.first passes

/-- What is run without a form travels as well with one. -/
theorem Assembly.Travels.checked {g : Assembly} {wire : Wire} {artifact : String} {n : Nat}
    (h : ({ g with form := none } : Assembly).Travels wire artifact n) :
    g.Travels wire artifact n where
  binding := h.binding
  first := h.first
  sent := h.sent
  returned := h.returned
  steps := Engine.Travels.checked h.steps g.validator

theorem Workbench.tighter_eq_min (a b : Option Nat) :
    tighter a b = (a.toList ++ b.toList).min? := by
  cases a <;> cases b <;> rfl

namespace Setup

variable {r : Setup} {iterations : Option Nat} {g : Assembly} {n : Nat}

theorem Names.prepare_eq (h : r.Names iterations g) :
    Workbench.prepare r.machine r.chosen r.engine =
      (if r.isIsolated then
        (Workbench.bindWorker r.machine r.chosen r.engine.artifact g.spec g.config g.input).mapError
          (CommandFault.notStarted r.engine.artifact)
      else
        (Workbench.bindHere r.machine r.chosen r.engine.artifact g.spec g.config g.input).mapError
          (.notLoaded r.engine.artifact)).map
        fun engine => ⟨engine, g.config, g.form, r.machine.wire, r.machine.workerSource⟩ := by
  obtain ⟨config, readConfig, configured⟩ := exists_of_map_eq_ok h.config
  obtain ⟨input, readInput, given⟩ := exists_of_map_eq_ok h.input
  unfold Workbench.prepare
  rw [h.spec, readConfig, readInput, h.form, ← configured, ← given]
  show (if r.isIsolated = true then _ else _) = _
  split <;> rfl

theorem Names.opens (h : r.Names iterations g)
    (travels : r.isIsolated = true → g.Travels r.machine.wire r.engine.artifact n)
    (started : r.isIsolated = true → ∃ p, r.machine.startWorker r.chosen = .ok p) :
    r.Opens iterations g := by
  obtain ⟨k, loaded⟩ := h.module
  unfold source at loaded
  refine ⟨h, ?_⟩
  rw [h.prepare_eq]
  split at loaded
  · next away =>
    obtain ⟨p, started⟩ := started away
    obtain ⟨proxy, proxied, -⟩ := (travels away).exists_proxy loaded
    rw [if_pos away]
    unfold Workbench.bindWorker
    rw [started, Machine.eq_hosting_of_startWorker started]
    dsimp only [bind, Except.bind]
    rw [proxied]
    exact ⟨_, rfl⟩
  · next near =>
    rw [if_neg near]
    unfold Workbench.bindHere
    rw [loaded]
    exact ⟨_, rfl⟩

theorem Opens.exists_bench_under (h : r.Opens iterations g) {form : Option FormSchema}
    (travels : r.isIsolated = true →
      ({ g with form } : Assembly).Travels r.machine.wire r.engine.artifact n) :
    ∃ w, Workbench.prepare r.machine r.chosen r.engine = .ok w ∧ w.config = g.config ∧
      w.form = g.form ∧ HostedEngine.Follows w.wire w.workerSource (form.map FormSchema.check) n
        w.engine g.engine := by
  obtain ⟨w, opened⟩ := h.opened
  obtain ⟨k, loaded⟩ := h.module
  unfold source at loaded
  refine ⟨w, opened, ?_⟩
  rw [h.prepare_eq] at opened
  obtain ⟨engine, bound, rfl⟩ := exists_of_map_eq_ok opened
  refine ⟨rfl, rfl, ?_⟩
  split at bound
  · next away =>
    rw [if_pos away] at loaded
    obtain ⟨p, started, spoken⟩ := exists_of_bind_eq_ok (exists_of_mapError_eq_ok bound)
    obtain ⟨proxy, proxied, mirrors⟩ := (travels away).exists_proxy loaded
    rw [Machine.eq_hosting_of_startWorker started, proxied] at spoken
    cases spoken
    exact .there mirrors (travels away).steps
  · next near =>
    rw [if_neg near] at loaded
    have here := exists_of_mapError_eq_ok bound
    unfold Workbench.bindHere at here
    rw [loaded] at here
    cases here
    exact .here _

theorem Opens.exists_bench (h : r.Opens iterations g)
    (travels : r.isIsolated = true → g.Travels r.machine.wire r.engine.artifact n) :
    ∃ w, Workbench.prepare r.machine r.chosen r.engine = .ok w ∧ w.config = g.config ∧
      w.form = g.form ∧
      HostedEngine.Follows w.wire w.workerSource g.validator n w.engine g.engine :=
  h.exists_bench_under travels

/-! ## Printing -/

theorem Opens.execute_eq (h : r.Opens iterations g) {w : Workbench}
    (opened : Workbench.prepare r.machine r.chosen r.engine = .ok w) {heard : List Snapshot}
    {last : Snapshot} (played : w.play r.chosen iterations r.interval = (heard, last)) :
    (r.arguments iterations).execute r.machine = .ending (heard.map Snapshot.toJson) last := by
  have executed : (r.arguments iterations).task.execute r.machine r.settings =
      .ok (.ending (heard.map Snapshot.toJson) last) := by
    show Task.executeRun r.machine r.chosen r.engine iterations r.interval = _
    unfold Task.executeRun
    rw [opened]
    dsimp only [bind, Except.bind]
    rw [played]
    rfl
  unfold Arguments.execute
  rw [h.settings]
  dsimp only [Except.mapError, bind, Except.bind]
  rw [executed]

/-- **What is run determines what is printed.** Let `n` be the smaller one of the limits that the
command and the configuration give, or let neither give one, but an attempt among the first `n`
fail, where `n` is at most the number of words that count steps. Then a number of attempts is made:
each but the last succeeds, and the last one fails or is the `n`-th; an attempt that succeeds is the
step with its number. However this is run, the snapshot at the start and one for each attempt are
printed, and the status says whether the last of them has an error. -/
theorem prints_trials (g : Assembly) (iterations : Option Nat) (n : Nat)
    (limited : (iterations.toList ++ g.config.limit.toList).min? = some n ∨
      iterations = none ∧ g.config.limit = none ∧ n ≤ Word.count ∧
        ∃ j < n, (g.trial j).isError = true) :
    ∃ k ≤ n,
      (∀ j, j + 1 < k → (g.trial j).isError = false) ∧
      (k = n ∨ ∃ j, k = j + 1 ∧ (g.trial j).isError = true) ∧
      (∀ j < k, (g.trial j).isError = false →
        g.trial j = (Engine.step^[j + 1] g.engine).snapshot ∧ (g.trial j).stepCount = j + 1) ∧
      let told := g.engine.snapshot :: (List.range k).map g.trial
      ∀ r : Setup, r.Opens iterations g →
        (r.isIsolated = true → g.Travels r.machine.wire r.engine.artifact n) →
          let c := (r.arguments iterations).execute r.machine
          c.printed = told.map (·.toJson.toText) ∧
            c.code = if told.getLast?.any Snapshot.isError then 1 else 0 := by
  have limited : Workbench.tighter iterations g.config.limit = some n ∨
      Workbench.tighter iterations g.config.limit = none ∧ n ≤ Word.count ∧
        ∃ j < n, (g.trial j).isError = true := by
    refine limited.imp (Workbench.tighter_eq_min _ _).trans ?_
    rintro ⟨unasked, unlimited, failing⟩
    rw [unasked, unlimited]
    exact ⟨rfl, failing⟩
  obtain ⟨k, tries⟩ := Engine.stepper.exists_tries g.validator g.engine n
  refine ⟨k, tries.few, tries.good, tries.ends, ?_, ?_⟩
  · intro j lt done
    exact tries.snapshot_eq Engine.stepper_sound rfl lt done
  · intro told r opens travels c
    obtain ⟨w, opened, config, form, follows⟩ := opens.exists_bench travels
    have plays := tries.playsOut Engine.stepper_sound rfl
      (limited.imp_right fun ⟨unlimited, _, failing⟩ => ⟨unlimited, failing⟩)
    have hosted := follows.playsOut plays (by simpa using tries.few)
    rw [← config] at hosted limited
    have few : k ≤ (Workbench.tighter iterations w.config.limit).getD Word.count := by
      have few := tries.few
      rcases limited with limit | ⟨limit, short, -⟩
      · rw [limit]
        exact few
      · rw [limit]
        exact Nat.le_trans few short
    have played := Stage.autoplay_spec w.stepper r.chosen.scheduler r.chosen.frameRate g.validator
      (w.interval r.chosen r.interval) _ w.engine hosted (by simpa using few)
    generalize ended : Stage.autoplay _ _ _ _ _ _ = p at played
    obtain ⟨t, last⟩ := p
    obtain ⟨heard, isLast⟩ := played
    have shown : t.heard = told := heard.trans (congrArg (· :: _) follows.snapshot_eq)
    have play : w.play r.chosen iterations r.interval = (told, last) := by
      unfold Workbench.play
      dsimp only
      rw [form, show g.form.map FormSchema.check = g.validator from rfl, ended, shown]
    have executed : c = .ending (told.map Snapshot.toJson) last :=
      opens.execute_eq opened play
    rw [executed]
    constructor
    · exact List.map_map
    · rw [← shown, isLast]
      cases error : last.error
        <;> simp [Completion.code, Completion.ending, Snapshot.isError, error]

/-! ## A run here and in a worker -/

/-- A library whose only function gives one. -/
def onesLibrary : NativeLibrary := [("_y", fun _ => ⟨0, Utf8.encode "1"⟩)]

/-- A machine where every file names the output `y`, and can be run and loaded. -/
def onesMachine : Machine where
  files :=
    { read := fun _ => .ok (Utf8.encode "\x7b\"y\":\x7b\x7d\x7d")
      isPresent := fun _ => true
      launch := fun _ => .ok ()
      makeDirectory := fun _ => .ok () }
  environment _ := none
  recognise _ := .ok onesLibrary
  workerPlaces := ["w"]

/-- The output `y` of the library, in a single step. -/
def ones : Assembly where
  module := onesLibrary.module "m"
  spec := Dict.ofList [("y", {})]
  config := .single
  input := .empty
  form := none

/-- A run here, under timers. -/
def near : Setup where
  machine := onesMachine
  settings := {}
  engine := { artifact := "m", outputs := "o" }

/-- A run in a worker, under frames and without a pause. -/
def far : Setup where
  machine := onesMachine
  settings := {}
  engine := { artifact := "m", outputs := "o", isolated := true }
  interval := some 0
  scheduler := some .frame

theorem trial_ones {j : Nat} (lt : j < 2) :
    ones.trial j = (Engine.step^[j + 1] ones.engine).snapshot ∧
      (ones.trial j).isError = false := by
  have cases : j = 0 ∨ j = 1 := by omega
  rcases cases with rfl | rfl
  · exact ⟨rfl, rfl⟩
  · exact ⟨rfl, rfl⟩

theorem travels_ones : ones.Travels .packed "m" 2 where
  binding := ⟨by cbv, by cbv, by cbv⟩
  first := by
    show Snapshot.decoder.run _ = _
    cbv
  sent := Frame.carried_of_length_le (by decide +kernel)
  returned := Frame.carried_of_length_le (by decide +kernel)
  steps := by
    intro j lt _ _
    have cases : j = 0 ∨ j = 1 := by omega
    rcases cases with rfl | rfl
    all_goals
      refine ⟨?_, ?_⟩
      · show Snapshot.decoder.run _ = _
        cbv
      · rintro _ ⟨⟩
        exact ⟨Frame.carried_of_length_le (by decide +kernel),
          Frame.carried_of_length_le (by decide +kernel)⟩

theorem near_names : near.Names (some 2) ones := ⟨rfl, by cbv, rfl, rfl, rfl, 0, rfl⟩

theorem near_opens : near.Opens (some 2) ones := near_names.opens (n := 2) nofun nofun

theorem far_opens : far.Opens (some 2) ones := by
  have named : far.Names (some 2) ones := ⟨rfl, by cbv, rfl, rfl, rfl, 0, rfl⟩
  have started : onesMachine.startWorker far.chosen = .ok { child := .hosting {} } :=
    WorkerProcess.spawn_hosting _ _ "w"
  exact named.opens (fun _ => travels_ones) fun _ => ⟨_, started⟩

/-- Two steps are printed alike, here and in a worker. -/
theorem prints_trials_ones :
    near.Opens (some 2) ones ∧ far.Opens (some 2) ones ∧ ones.Travels .packed "m" 2 ∧
      ((far.arguments (some 2)).execute onesMachine).printed =
        ((near.arguments (some 2)).execute onesMachine).printed ∧
      ((near.arguments (some 2)).execute onesMachine).printed.length = 3 ∧
      ((far.arguments (some 2)).execute onesMachine).code = 0 := by
  obtain ⟨k, few, good, ends, steps, prints⟩ := prints_trials ones (some 2) 2 (.inl rfl)
  have whole : k = 2 := by
    rcases ends with whole | ⟨j, rfl, failed⟩
    · exact whole
    · rw [(trial_ones few).2] at failed
      cases failed
  subst whole
  obtain ⟨here, -⟩ := prints near near_opens nofun
  obtain ⟨there, code⟩ := prints far far_opens fun _ => travels_ones
  refine ⟨near_opens, far_opens, travels_ones, there.trans here.symm, ?_, ?_⟩
  · rw [show near.machine = onesMachine from rfl] at here
    rw [here]
    rfl
  · exact code

end Setup

end Cadence
