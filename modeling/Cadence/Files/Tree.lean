import Cadence.Files.Access

/-!
# File trees

A tree of directories and files, in which a path is looked up one part after another. Paths are
byte strings; `.` and an empty part stand for the directory itself, and `..` for the one above.

* `FileTree`, `FileTree.entry?`: what is at a place;
* `FileTree.resolve`: the place of a path;
* `FileTree.read`, `FileTree.launch`, `FileTree.makeDirectory`: the contents of a file, whether it
  can be run as a program, and whether a directory can be made;
* `FileTree.access`: access to a tree.
-/

namespace Cadence

/-- The names on the way from the root to a place. -/
abbrev Place := List Bytes

/-- What is at a place. -/
inductive FileEntry
  | directory
  | file (contents : Bytes) (executable : Bool)
deriving DecidableEq, Repr

/-- A tree of files and further directories; the directories on the way to a place are in it too.
Relative paths start in the working directory. -/
structure FileTree where
  files : List (Place × Bytes × Bool) := []
  directories : List Place := [[]]
  workingDirectory : Place := []

namespace FileTree

/-- What is at a place. -/
def entry? (t : FileTree) (p : Place) : Option FileEntry :=
  match t.files.lookup p with
  | some (contents, executable) => some (.file contents executable)
  | none =>
    if (t.directories ++ t.files.map (·.1)).any p.isPrefixOf then some .directory else none

/-- The parts of a path between its slashes. -/
def parts : Bytes → List Bytes
  | [] => [[]]
  | b :: bs =>
    match parts bs with
    | [] => [[b]]
    | p :: ps => if b = 0x2F then [] :: p :: ps else (b :: p) :: ps

/-- The longest name of a file, in bytes. -/
def maxName : Nat := 255

/-- The longest path, in bytes. -/
def maxPath : Nat := 4095

/-- Follow parts from a place. -/
def follow (t : FileTree) (p : Place) : List Bytes → Except FileFault Place
  | [] => .ok p
  | name :: rest =>
    match t.entry? p with
    | some .directory =>
      if name = [] ∨ name = [0x2E] then t.follow p rest
      else if name = [0x2E, 0x2E] then t.follow p.dropLast rest
      else if maxName < name.length then .error .nameTooLong
      else if (t.entry? (p ++ [name])).isSome then t.follow (p ++ [name]) rest
      else .error .notFound
    | _ => .error .notDirectory

/-- Where a path starts. -/
def start (t : FileTree) (path : Bytes) : Place :=
  if path.head? = some 0x2F then [] else t.workingDirectory

/-- The place of a path. -/
def resolve (t : FileTree) (path : Bytes) : Except FileFault Place :=
  if path.contains 0 then .error .nulInPath
  else if path.isEmpty then .error .notFound
  else if maxPath < path.length then .error .nameTooLong
  else t.follow (t.start path) (parts path)

/-- The contents of a file. -/
def read (t : FileTree) (path : Bytes) : Except FileFault Bytes := do
  match t.entry? (← t.resolve path) with
  | some (.file contents _) => .ok contents
  | some .directory => .error .isDirectory
  | none => .error .notFound

/-- A path can be run as a program. One without a slash is not looked for in this tree. -/
def launch (t : FileTree) (path : Bytes) : Except FileFault Unit :=
  if path.contains 0x2F then do
    match t.entry? (← t.resolve path) with
    | some (.file _ true) => .ok ()
    | some _ => .error .permissionDenied
    | none => .error .notFound
  else .error .notFound

/-- A directory is at a path, or can be made there together with those on the way. -/
def makeDirectory (t : FileTree) (path : Bytes) : Except FileFault Unit :=
  if path.isEmpty then .ok ()
  else
    match t.resolve path with
    | .ok p => if t.entry? p = some .directory then .ok () else .error .exists
    | .error .notFound => .ok ()
    | .error f => .error f

/-- Access to a tree. -/
def access (t : FileTree) : FileAccess where
  read := t.read
  isPresent path := (t.resolve path).isOk
  launch := t.launch
  makeDirectory := t.makeDirectory

end FileTree

end Cadence
