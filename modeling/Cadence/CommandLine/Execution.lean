import Cadence.CommandLine.Arguments
import Cadence.CommandLine.Machine
import Cadence.Compiler.Client
import Cadence.Playback.Autoplay

/-!
# Carrying out commands

* `CommandFault`, `CommandFault.message`: why a command fails;
* `Workbench`, `Workbench.prepare`: an engine with its configuration and its form, from the files
  and the module that the arguments name;
* `Workbench.play`, `Workbench.walk`: what playing and stepping print, and the last snapshot;
* `Completion`, `Arguments.execute`: what a command prints, and how it ends;
* `Machine.answer`, `Answer`: a whole command line, with what it writes and its status.
-/

namespace Cadence

/-- Why a command fails. -/
inductive CommandFault
  | fault (cause : Fault)
  | unreadable (what path : String) (cause : FileFault)
  | malformed (what path : String)
  | schemaUnreadable (path : String) (cause : FileFault)
  | notLoaded (artifact : String) (cause : LoadFault)
  | notStarted (artifact : String) (cause : Fault)
  | stopped (error : String)
deriving DecidableEq, Repr

/-- The wording of a fault; its cause is told apart from it. -/
def CommandFault.message : CommandFault → String
  | .fault cause => cause.message
  | .unreadable what path _ => "Failed to read " ++ what ++ " from " ++ path
  | .malformed what path => "Invalid " ++ what ++ " in " ++ path
  | .schemaUnreadable path _ => "Failed to read schema " ++ path
  | .notLoaded artifact _ => "Failed to load " ++ artifact
  | .notStarted artifact _ => "Failed to start worker for " ++ artifact
  | .stopped error => error

/-- The wording of the cause, if there is one. -/
def CommandFault.cause? : CommandFault → Option String
  | .unreadable _ _ cause | .schemaUnreadable _ cause => some cause.message
  | .notLoaded _ cause => some cause.message
  | .notStarted _ cause => some cause.message
  | .fault _ | .malformed .. | .stopped _ => none

/-- What a command prints, and the fault that it ends with. -/
structure Completion where
  printed : List String := []
  fault : Option CommandFault := none

/-- An engine with its configuration, the form of its input, and the wire and the modules of a
worker. -/
structure Workbench where
  engine : HostedEngine
  config : ExecutionConfig
  form : Option FormSchema
  wire : Wire
  workerSource : ModuleCache.Source

namespace Workbench

/-- Read a file. -/
def readFile (m : Machine) (decoder : Decoder α) (what path : String) : Except CommandFault α :=
  match m.files.readText path with
  | .error cause => .error (.unreadable what path cause)
  | .ok text =>
    match decoder.runText text with
    | some a => .ok a
    | none => .error (.malformed what path)

/-- Read a file that may be left out. -/
def readOptional (m : Machine) (decoder : Decoder α) (what : String) :
    Option String → Except CommandFault (Option α)
  | none => .ok none
  | some path => (readFile m decoder what path).map some

/-- Bind an engine in a worker. -/
def bindWorker (m : Machine) (s : Settings) (artifact : String) (spec : OutputSpec)
    (config : ExecutionConfig) (input : Record) : Except Fault HostedEngine := do
  let p ← m.startWorker s
  match Proxy.start (WorkerProcess.channel m.wire m.workerSource) p artifact spec config input with
  | (_, some f) => .error f
  | (proxy, none) => .ok (.inWorker proxy)

/-- Bind an engine in this process. -/
def bindHere (m : Machine) (s : Settings) (artifact : String) (spec : OutputSpec)
    (config : ExecutionConfig) (input : Record) : Except LoadFault HostedEngine :=
  (({} : ModuleCache).load (m.source s) artifact).2.map fun loaded =>
    .inProcess (Engine.create loaded.2 spec config input)

/-- Read the files that the arguments name, and bind the engine. -/
def prepare (m : Machine) (s : Settings) (a : EngineArguments) : Except CommandFault Workbench := do
  let spec ← readFile m OutputSpec.decoder "output spec" a.outputs
  let config ← readOptional m ExecutionConfig.decoder "execution config" a.execution
  let config := config.getD .single
  let input ← readOptional m Decoder.record "input" a.input
  let input := input.getD .empty
  let form ← readOptional m FormSchema.decoder "input schema" a.form
  let engine ←
    if a.isolated || s.isolated then
      (bindWorker m s a.artifact spec config input).mapError (.notStarted a.artifact)
    else (bindHere m s a.artifact spec config input).mapError (.notLoaded a.artifact)
  return ⟨engine, config, form, m.wire, m.workerSource⟩

/-- The operations on the engine. -/
def stepper (w : Workbench) : Stepper HostedEngine := HostedEngine.stepper w.wire w.workerSource

/-- The smaller of two limits, of which either may be missing. -/
def tighter : Option Nat → Option Nat → Option Nat
  | some a, some b => some (min a b)
  | a, b => a.or b

/-- The time between steps: what was asked for, or else what the configuration says, or else what
the settings say. -/
def interval (w : Workbench) (s : Settings) (asked : Option Nat) : Nat :=
  match asked, w.config.speed with
  | some ms, _ => ms
  | none, some _ => w.config.playbackInterval
  | none, none => s.interval

/-- Play under a scheduler, until a step fails or a limit is reached. Every snapshot is printed, and
the last one tells how it has ended. -/
def play (w : Workbench) (s : Settings) (iterations asked : Option Nat) :
    List Snapshot × Snapshot :=
  let scheduler := s.scheduler.scheduler s.frameRate
  let limit := tighter iterations w.config.limit
  let validator := w.form.map FormSchema.check
  let (t, last) := Stage.autoplay w.stepper scheduler validator (w.interval s asked) limit w.engine
  (t.heard, last)

/-- Run steps back to back, and give their history and the last snapshot. -/
def walk (w : Workbench) (count : Nat) : List IterationStep × Snapshot :=
  let (history, e) := w.stepper.runIterations count w.engine
  (history, w.stepper.snapshot e)

/-- What the form has against the input. -/
def objections (w : Workbench) : List FieldError :=
  match w.form with
  | none => []
  | some form => form.check (w.stepper.snapshot w.engine).input

end Workbench

namespace Completion

/-- A command that fails before it prints. -/
def failed (f : CommandFault) : Completion := { fault := some f }

/-- A command that ends with a snapshot has failed if that tells of an error. -/
def ending (printed : List Json) (last : Snapshot) : Completion where
  printed := printed.map Json.toText
  fault := last.error.map .stopped

/-- The status that a command ends with. -/
def code (c : Completion) : Nat := if c.fault.isSome then 1 else 0

end Completion

namespace Task

/-- Play, and print every snapshot. -/
def executeRun (m : Machine) (s : Settings) (a : EngineArguments)
    (iterations interval : Option Nat) : Except CommandFault Completion := do
  let w ← Workbench.prepare m s a
  let (heard, last) := w.play s iterations interval
  return .ending (heard.map Snapshot.toJson) last

/-- Step, and print the history. The input is checked before the first step. -/
def executeStep (m : Machine) (s : Settings) (a : EngineArguments) (count : Nat) :
    Except CommandFault Completion := do
  let w ← Workbench.prepare m s a
  match w.objections with
  | [] =>
    let (history, last) := w.walk count
    return .ending (history.map IterationStep.toJson) last
  | errors => .error (.fault (.validation errors))

/-- Compile a schema, and print what comes of it. -/
def executeCompile (m : Machine) (s : Settings) (path : String) :
    Except CommandFault Completion := do
  let schema ← (m.files.readText path).mapError (.schemaUnreadable path)
  let client ← (CompilerClient.create s.compilerUrl).mapError .fault
  let result ← (client.compile m.network schema).mapError .fault
  return { printed := result.toJson.toLines }

/-- Carry out a task under settings, which its own options change. -/
def execute (m : Machine) (s : Settings) : Task → Except CommandFault Completion
  | .run a iterations interval scheduler =>
    executeRun m { s with scheduler := scheduler.getD s.scheduler } a iterations interval
  | .step a count => executeStep m s a count
  | .compile path url => executeCompile m { s with compilerUrl := url.getD s.compilerUrl } path

end Task

namespace Arguments

/-- The settings: a file, if one is named, and the environment. -/
def settings (m : Machine) (a : Arguments) : Except Fault Settings :=
  Settings.load (a.config.map fun path =>
    (path, (m.files.read (Utf8.encode path)).mapError FileFault.message)) m.environment

/-- The files that a command line names. -/
def paths (a : Arguments) : List Bytes :=
  let engine := fun e : EngineArguments =>
    Fetch.pathOf e.artifact ::
      ([some e.outputs, e.execution, e.input, e.form].filterMap id).map Utf8.encode
  (a.config.map Utf8.encode).toList ++
    match a.task with
    | .run e .. => engine e
    | .step e _ => engine e
    | .compile path _ => [Utf8.encode path]

/-- Carry out a command. -/
def execute (m : Machine) (a : Arguments) : Completion :=
  match (a.settings m).mapError CommandFault.fault >>= fun s => a.task.execute m s with
  | .ok c => c
  | .error f => .failed f

end Arguments

/-- What a command line comes to: lines that were asked for, wrong usage, or a command's end. -/
inductive Answer
  | shown (lines : List String)
  | refused (fault : UsageFault)
  | completed (completion : Completion)

/-- The lines for the standard output. -/
def Answer.printed : Answer → List String
  | .shown lines => lines
  | .refused _ => []
  | .completed c => c.printed

/-- The lines for the standard error output. -/
def Answer.complaints : Answer → List String
  | .shown _ => []
  | .refused f => ["error: " ++ f.message]
  | .completed c =>
    match c.fault with
    | none => []
    | some f =>
      ("Error: " ++ f.message) ::
        match f.cause? with
        | none => []
        | some cause => ["", "Caused by:", "    " ++ cause]

/-- The status that the program ends with. -/
def Answer.code : Answer → Nat
  | .shown _ => 0
  | .refused _ => 2
  | .completed c => c.code

/-- Answer a command line. -/
def Machine.answer (m : Machine) (arguments : List String) : Answer :=
  match Arguments.read arguments with
  | .accepted a => .completed (a.execute m)
  | .shown lines => .shown lines
  | .refused f => .refused f

end Cadence
