import Cadence.Fault
import Cadence.Schedule.Kind
import Cadence.Text.Blank
import Cadence.Text.Unsigned
import Cadence.Word

/-!
# Settings

Settings come from defaults, then a file, then environment variables.

* `Settings` and its written form;
* `Settings.overlay`: settings changed by environment variables;
* `Settings.load`: defaults or a file, then the environment.
-/

namespace Cadence

/-- The settings of a session. -/
structure Settings where
  compilerUrl : String := "http://localhost:3000"
  scheduler : SchedulerKind := .timer
  frameRate : Nat := 60
  interval : Nat := 250
  isolated : Bool := false
  workerPath : Option String := none
  moduleDir : Option String := none
deriving DecidableEq, Repr

namespace Settings

/-- The field names in written order. -/
def fieldNames : List String :=
  ["compiler_url", "scheduler", "frame_rate", "default_interval_ms", "isolated", "worker_path",
    "module_dir"]

/-- Read settings; what is left out has its default. -/
def decoder : Decoder Settings := fun depth d => do
  let fs ← Fields.read fieldNames depth d
  let dflt : Settings := {}
  let compilerUrl ← fs.withDefault "compiler_url" dflt.compilerUrl Decoder.string
  let scheduler ← fs.withDefault "scheduler" dflt.scheduler SchedulerKind.decoder
  let frameRate ← fs.withDefault "frame_rate" dflt.frameRate (Decoder.unsigned Word.largest32)
  let interval ← fs.withDefault "default_interval_ms" dflt.interval (Decoder.unsigned Word.largest)
  let isolated ← fs.withDefault "isolated" dflt.isolated Decoder.bool
  let workerPath ← fs.withDefault "worker_path" dflt.workerPath Decoder.string.option
  let moduleDir ← fs.withDefault "module_dir" dflt.moduleDir Decoder.string.option
  return ⟨compilerUrl, scheduler, frameRate, interval, isolated, workerPath, moduleDir⟩

/-- The written form; every field is written. -/
def toJson (s : Settings) : Json :=
  .obj [("compiler_url", .str s.compilerUrl), ("scheduler", .str s.scheduler.name),
    ("frame_rate", .nat s.frameRate), ("default_interval_ms", .nat s.interval),
    ("isolated", .bool s.isolated), ("worker_path", Json.orNull .str s.workerPath),
    ("module_dir", Json.orNull .str s.moduleDir)]

/-- The spellings of a flag that is set. -/
def truthy : List String := ["1", "true", "yes", "on"]

/-- A flag, in any mix of ASCII upper and lower case. -/
def isSet (flag : String) : Bool := truthy.contains ((Text.trim flag).map Char.toLower)

/-- An unsigned integer variable. -/
def readVariable (max : Nat) (key value : String) : Except Fault Nat :=
  match Text.readUnsigned max (Text.trimChars value.toList) with
  | .ok n => .ok n
  | .error e => .error (.config (key ++ "=" ++ value ++ ": " ++ e.message))

/-- Change settings by environment variables, in a fixed order. -/
def overlay (s : Settings) (env : String → Option String) : Except Fault Settings := do
  let s := match env "TEMPO_COMPILER_URL" with
    | some url => { s with compilerUrl := url }
    | none => s
  let s ← match env "TEMPO_SCHEDULER" with
    | some kind => do
      let k ← (SchedulerKind.ofText kind).mapError Fault.config
      pure { s with scheduler := k }
    | none => pure s
  let s ← match env "TEMPO_FRAME_RATE" with
    | some v => do pure { s with frameRate := ← readVariable Word.largest32 "TEMPO_FRAME_RATE" v }
    | none => pure s
  let s ← match env "TEMPO_INTERVAL_MS" with
    | some v => do pure { s with interval := ← readVariable Word.largest "TEMPO_INTERVAL_MS" v }
    | none => pure s
  let s := match env "TEMPO_ISOLATED" with
    | some flag => { s with isolated := isSet flag }
    | none => s
  let s := match env "TEMPO_WORKER_PATH" with
    | some p => { s with workerPath := some p }
    | none => s
  return match env "TEMPO_MODULE_DIR" with
    | some p => { s with moduleDir := some p }
    | none => s

/-- The settings in a file's contents, or the reason why the file could not be read. -/
def ofFile (path : String) : Except String Bytes → Except Fault Settings
  | .error reason => .error (.config ("cannot read " ++ path ++ ": " ++ reason))
  | .ok bytes =>
    match Utf8.decode? bytes with
    | none => .error (.config ("cannot read " ++ path ++ ": stream did not contain valid UTF-8"))
    | some _ =>
      match decoder.run bytes with
      | some s => .ok s
      | none => .error (.config ("invalid config " ++ path ++ ": malformed settings"))

/-- Settings from an optional file and the environment. -/
def load (file : Option (String × Except String Bytes)) (env : String → Option String) :
    Except Fault Settings := do
  let s ← match file with
    | some (path, contents) => ofFile path contents
    | none => pure {}
  s.overlay env

end Settings

end Cadence
