import Cadence.CommandLine.Options

/-!
# Arguments

* `EngineArguments`, `Task`, `Arguments`: what a command line asks for;
* `Arguments.read`, `Reading`: read a command line, and what it comes to;
* `Manual.text`: the help of the program and of its commands.
-/

namespace Cadence

/-- Which engine to run, and on what; all but the artifact are paths. -/
structure EngineArguments where
  artifact : String
  outputs : String
  execution : Option String := none
  input : Option String := none
  form : Option String := none
  isolated : Bool := false
deriving DecidableEq, Repr

/-- What to do: play on a schedule, run steps back to back, or compile a schema. -/
inductive Task
  | run (engine : EngineArguments) (iterations interval : Option Nat)
      (scheduler : Option SchedulerKind)
  | step (engine : EngineArguments) (count : Nat)
  | compile (schema : String) (url : Option String)
deriving DecidableEq, Repr

/-- A command line. -/
structure Arguments where
  config : Option String := none
  verbose : Bool := false
  task : Task
deriving DecidableEq, Repr

/-- The help of a command. -/
structure Manual where
  command : Option String := none
  about : String
  usage : String
  commands : List (String × String) := []
  words : List (String × String) := []
  options : List OptionSpec

namespace Manual

/-! ## Options of the commands -/

/-- Options of every command. -/
def common : List OptionSpec :=
  [⟨"config", some 'c', some ("CONFIG", .path), "Configuration file (JSON)"⟩,
    ⟨"verbose", some 'v', none, "Enable verbose logging"⟩]

/-- The request for help. -/
def helpOption : OptionSpec := ⟨"help", some 'h', none, "Print help"⟩

/-- Options about an engine. -/
def engineOptions : List OptionSpec :=
  [⟨"artifact", none, some ("ARTIFACT", .text), "Compiled module location (URL or path)"⟩,
    ⟨"outputs", none, some ("OUTPUTS", .path),
      "Output spec (JSON object of output name -> descriptor)"⟩,
    ⟨"exec", none, some ("EXEC", .path), "Execution config (JSON); defaults to single mode"⟩,
    ⟨"input", none, some ("INPUT", .path), "Initial input record (JSON object)"⟩,
    ⟨"input-schema", none, some ("INPUT_SCHEMA", .path),
      "Input form schema (JSON) used to validate input before each step"⟩,
    ⟨"isolated", none, none, "Run the engine in a separate worker process"⟩]

/-- The help of the command that plays. -/
def run : Manual where
  command := some "run"
  about := "Play a module on a schedule, printing each snapshot as a JSON line"
  usage := "tempo run [OPTIONS] --artifact <ARTIFACT> --outputs <OUTPUTS>"
  options := engineOptions ++
    [⟨"iterations", some 'n', some ("ITERATIONS", .count), "Stop after this many steps"⟩,
      ⟨"interval", none, some ("INTERVAL", .count),
        "Milliseconds between steps (overrides the execution config)"⟩,
      ⟨"scheduler", none, some ("SCHEDULER", .scheduler), "Scheduler: timer or frame"⟩] ++
    common ++ [helpOption]

/-- The help of the command that steps. -/
def step : Manual where
  command := some "step"
  about := "Run a fixed number of steps back to back, printing the history"
  usage := "tempo step [OPTIONS] --artifact <ARTIFACT> --outputs <OUTPUTS>"
  options := engineOptions ++
    [⟨"count", some 'n', some ("COUNT", .count), "Number of steps [default: 1]"⟩] ++
    common ++ [helpOption]

/-- The help of the command that compiles. -/
def compile : Manual where
  command := some "compile"
  about := "Compile a schema with the compiler service"
  usage := "tempo compile [OPTIONS] <SCHEMA>"
  words := [("<SCHEMA>", "Path to the schema source")]
  options := [⟨"url", none, some ("URL", .text), "Compiler base URL (overrides configuration)"⟩] ++
    common ++ [helpOption]

/-- The help of the program. -/
def program : Manual where
  about := "Run compiled computations step by step with output feedback"
  usage := "tempo [OPTIONS] <COMMAND>"
  commands := [run, step, compile].filterMap (fun m => m.command.map (·, m.about)) ++
    [("help", "Print this message or the help of the given subcommand(s)")]
  options := common ++ [helpOption, ⟨"version", some 'V', none, "Print version"⟩]

/-- The help of a command by its name. -/
def ofCommand? (name : String) : Option Manual := [run, step, compile].find? (·.command = some name)

/-! ## Text -/

/-- The width for which help is laid out. -/
def width : Nat := 100

/-- Blanks up to a column. -/
def padded (n : Nat) (s : String) : String := s ++ String.ofList (List.replicate (n - s.length) ' ')

/-- Rows of a list: a term and its explanation beside it, or below it if one of them is too long to
stand beside. -/
def rows (indent : String) (tall : Bool) (entries : List (String × String)) : List String :=
  let column := (entries.map (·.1.length)).foldl max 0
  entries.flatMap fun (term, help) =>
    if tall then [indent ++ term, "          " ++ help]
    else [indent ++ padded column term ++ "  " ++ help]

/-- An option in a list. -/
def optionTerm (o : OptionSpec) : String :=
  (match o.short with
    | some c => String.ofList ['-', c] ++ ", "
    | none => "    ") ++
  "--" ++ o.long ++ ((o.value.map fun v => " <" ++ v.1 ++ ">").getD "")

/-- The explanations do not fit beside the options. -/
def isTall (options : List OptionSpec) : Bool :=
  let taken := (options.map fun o => (optionTerm o).length - 4).foldl max 0 + 12
  options.any fun o => 4 * width < 10 * taken && width - taken < o.help.length

/-- A list with its title, after an empty line, unless there is nothing in it. -/
def block (title : String) (lines : List String) : List String :=
  if lines.isEmpty then [] else ["", title] ++ lines

/-- The lines of the help. -/
def text (m : Manual) : List String :=
  [m.about, "", "Usage: " ++ m.usage] ++ block "Commands:" (rows "  " false m.commands) ++
    block "Arguments:" (rows "  " false m.words) ++
    block "Options:" (rows "  " (isTall m.options) (m.options.map fun o => (optionTerm o, o.help)))

end Manual

/-- What a command line comes to. -/
inductive Reading
  | accepted (arguments : Arguments)
  | shown (lines : List String)
  | refused (fault : UsageFault)

namespace Arguments

/-- The line that names the version. -/
def version : String := "tempo 0.1.0"

/-- An option that has to be given. -/
def required (g : Given) (long : String) : Except Stop String :=
  match g.value? long with
  | some v => .ok v
  | none => .error (.fault (.missing long))

/-- The count that an option gives. -/
def count? (g : Given) (long : String) : Option Nat :=
  (g.value? long).bind fun v => (Text.readUnsigned Word.largest v.toList).toOption

/-- The engine that is asked for. -/
def readEngine (g : Given) : Except Stop EngineArguments := do
  let artifact ← required g "artifact"
  let outputs ← required g "outputs"
  return { artifact, outputs, execution := g.value? "exec", input := g.value? "input",
           form := g.value? "input-schema", isolated := g.has "isolated" }

/-- The task of a command with its options. -/
def readTask (command : String) (g : Given) : Except Stop Task :=
  match command, g.words with
  | "run", _ => do
    let scheduler := (g.value? "scheduler").bind fun v => (SchedulerKind.ofText v).toOption
    return .run (← readEngine g) (count? g "iterations") (count? g "interval") scheduler
  | "step", _ => do return .step (← readEngine g) ((count? g "count").getD 1)
  | _, [schema] =>
    if schema = "" then .error (.fault (.missing "SCHEMA"))
    else .ok (.compile schema (g.value? "url"))
  | _, _ => .error (.fault (.missing "SCHEMA"))

/-- The help that a word after `help` asks for. -/
def readHelp : List String → Reading
  | [] => .shown Manual.program.text
  | [name] =>
    match Manual.ofCommand? name with
    | some m => .shown m.text
    | none => .refused (.unknownCommand name)
  | _ :: w :: _ => .refused (.unexpectedWord w)

/-- What a stop comes to within the help of a command. -/
def stopped (m : Manual) : Stop → Reading
  | .fault f => .refused f
  | .help => .shown m.text
  | .version => .shown [version]

/-- Read what follows the name of a command. Options of the program may stand on either side of it,
and the later one counts. -/
def readCommand (outer : Given) (name : String) (rest : List String) : Reading :=
  match Manual.ofCommand? name with
  | none => if name = "help" then readHelp rest else .refused (.unknownCommand name)
  | some m =>
    let result : Except Stop Arguments := do
      let (g, _) ← Given.scan m.options (some m.words.length) none {} rest
      return { config := (g.value? "config").or (outer.value? "config")
               verbose := g.has "verbose" || outer.has "verbose"
               task := ← readTask name g }
    match result with
    | .ok a => .accepted a
    | .error s => stopped m s

/-- Read a command line. -/
def read (arguments : List String) : Reading :=
  match Given.scan Manual.program.options none none {} arguments with
  | .error s => stopped .program s
  | .ok (_, []) => .refused .missingCommand
  | .ok (outer, name :: rest) => readCommand outer name rest

end Arguments

end Cadence
