import Cadence.CommandLine.Execution

/-!
# The program

The outer layer of the command line: it reads the files and the environment variables that a command
line may look at, lets `Machine.answer` decide, and writes what that says. It opens no connections,
starts no processes, and opens no native libraries.
-/

namespace Cadence.Program

/-- Why a file cannot be read. -/
def faultOf : IO.Error → FileFault
  | .noFileOrDirectory .. => .notFound
  | .permissionDenied .. => .permissionDenied
  | .inappropriateType .. => .isDirectory
  | e => .other (toString e)

/-- Read a file. -/
def readFile (path : Bytes) : IO (Except FileFault Bytes) := do
  match Utf8.decode? path with
  | none => return .error .notFound
  | some name =>
    try
      let contents ← IO.FS.readBinFile name
      return .ok contents.toList
    catch e => return .error (faultOf e)

/-- Access to files that have been read. -/
def accessTo (contents : List (Bytes × Except FileFault Bytes)) : FileAccess where
  read path := (contents.lookup path).getD (.error .notFound)
  isPresent path := ((contents.lookup path).map (·.isOk)).getD false
  launch _ := .error .permissionDenied
  makeDirectory _ := .ok ()

/-- The machine that a command line finds. -/
def machineFor (arguments : List String) : IO Machine := do
  let paths := match Arguments.read arguments with
    | .accepted a => a.paths
    | _ => []
  let contents ← paths.mapM fun path => return (path, ← readFile path)
  let environment ← Machine.variableNames.mapM fun name => return (name, ← IO.getEnv name)
  return { files := accessTo contents
           environment := fun name => (environment.lookup name).join
           recognise := fun _ => .error "native libraries cannot be opened" }

/-- Write lines. -/
def writeLines (stream : IO.FS.Stream) (lines : List String) : IO Unit := do
  for line in lines do
    stream.putStrLn line
  stream.flush

end Cadence.Program

/-- Answer the command line, and end with its status. -/
def main (arguments : List String) : IO UInt32 := do
  let answer := (← Cadence.Program.machineFor arguments).answer arguments
  Cadence.Program.writeLines (← IO.getStdout) answer.printed
  Cadence.Program.writeLines (← IO.getStderr) answer.complaints
  return UInt32.ofNat answer.code
