import Cadence.Module.Fetch
import Cadence.Module.Native
import Cadence.Settings
import Cadence.Worker.Hosted

/-!
# The machine that commands run on

* `Machine`: files, environment variables, the network, and what can be loaded and run;
* `Machine.moduleDirectory`: where native modules are unpacked;
* `Machine.source`: the modules that can be loaded under some settings;
* `Machine.startWorker`: a worker process.
-/

namespace Cadence

/-- What commands find around them. `workerPlaces` are the usual places of the worker program, and a
worker is spoken to over `wire`. -/
structure Machine where
  files : FileAccess
  environment : String → Option String
  network : Network := .unreachable
  recognise : Bytes → Except String NativeLibrary
  workerPlaces : List String := []
  wire : Wire := .packed

namespace Machine

/-- The environment variables that are looked at. -/
def variableNames : List String :=
  ["TEMPO_COMPILER_URL", "TEMPO_SCHEDULER", "TEMPO_FRAME_RATE", "TEMPO_INTERVAL_MS",
    "TEMPO_ISOLATED", "TEMPO_WORKER_PATH", "TEMPO_MODULE_DIR", "XDG_CACHE_HOME", "HOME"]

/-- The directory for files that can be made again. -/
def cacheDirectory (m : Machine) : String :=
  match m.environment "XDG_CACHE_HOME", m.environment "HOME" with
  | some dir, home =>
    if dir.startsWith "/" then dir else (home.map (· ++ "/.cache")).getD "/tmp"
  | none, some home => home ++ "/.cache"
  | none, none => "/tmp"

/-- The directory where native modules are unpacked. -/
def moduleDirectory (m : Machine) (s : Settings) : String :=
  s.moduleDir.getD (m.cacheDirectory ++ "/tempo/modules")

/-- Open a payload as a native library. The copy needs a directory in its path to be found again. -/
def openLibrary (m : Machine) (directory location : String) (payload : Bytes) : Loaded :=
  match m.files.makeDirectory (Utf8.encode directory) with
  | .error f => .error (.eval location ("cannot create " ++ directory ++ ": " ++ f.message))
  | .ok () =>
    if directory.isEmpty then .error (.eval location "cannot open shared object file")
    else (NativeLibrary.openCopy m.recognise [] "copy" location payload).2

/-- The modules that can be loaded: native libraries that are fetched and opened. -/
def source (m : Machine) (s : Settings) : ModuleCache.Source := fun location _ =>
  (Fetch.payload m.network m.files location).bind (m.openLibrary (m.moduleDirectory s) location)

/-- The settings of a worker, which reads the environment alone. -/
def workerSettings (m : Machine) : Except Fault Settings := Settings.load none m.environment

/-- The modules that a worker can load. -/
def workerSource (m : Machine) : ModuleCache.Source :=
  match m.workerSettings with
  | .ok s => m.source s
  | .error _ => fun location _ => .error (.io location "no settings")

/-- The path of the worker program: the one in the settings, or else one that is found. -/
def workerPath (m : Machine) (s : Settings) : Except Fault String :=
  let present := fun p : String => m.files.isPresent (Utf8.encode p)
  let found := WorkerProcess.locate present (m.environment "TEMPO_WORKER_PATH") m.workerPlaces
  match s.workerPath.or found with
  | some path => .ok path
  | none => .error (.channel .noProgram)

/-- Start a worker. One that finds no settings is gone before it is spoken to. -/
def startWorker (m : Machine) (s : Settings) : Except Fault WorkerProcess := do
  let path ← m.workerPath s
  let child : Child := if m.workerSettings.isOk then .hosting {} else .gone
  let launch := (m.files.launch (Utf8.encode path)).mapError FileFault.message
  WorkerProcess.spawn m.wire m.workerSource path (launch.map fun _ => child)

end Machine

end Cadence
