import Cadence.Text.Utf8

/-!
# Access to files

* `FileFault`: why an operation on a path fails, and the wording;
* `FileAccess`: what can be done with paths, which are byte strings;
* `FileAccess.readText`: the text in a file.
-/

namespace Cadence

/-- Why an operation on a path fails. -/
inductive FileFault
  | notFound
  | permissionDenied
  | exists
  | notDirectory
  | isDirectory
  | nameTooLong
  | nulInPath
  | notText
  | other (reason : String)
deriving DecidableEq, Repr

/-- The wording of a fault. -/
def FileFault.message : FileFault → String
  | .notFound => "No such file or directory (os error 2)"
  | .permissionDenied => "Permission denied (os error 13)"
  | .exists => "File exists (os error 17)"
  | .notDirectory => "Not a directory (os error 20)"
  | .isDirectory => "Is a directory (os error 21)"
  | .nameTooLong => "File name too long (os error 36)"
  | .nulInPath => "file name contained an unexpected NUL byte"
  | .notText => "stream did not contain valid UTF-8"
  | .other reason => reason

/-- What can be done with paths: read the contents of a file, find out whether something is there,
run a program, and make a directory unless it is there. -/
structure FileAccess where
  read : Bytes → Except FileFault Bytes
  isPresent : Bytes → Bool
  launch : Bytes → Except FileFault Unit
  makeDirectory : Bytes → Except FileFault Unit

namespace FileAccess

/-- The text in a file. -/
def readText (a : FileAccess) (path : String) : Except FileFault String := do
  match Utf8.decode? (← a.read (Utf8.encode path)) with
  | some s => .ok s
  | none => .error .notText

end FileAccess

end Cadence
