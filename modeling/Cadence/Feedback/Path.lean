import Cadence.Json.Basic
import Cadence.Text.Unsigned
import Cadence.Word

/-!
# Dotted paths

A path is a text of segments between dots. The first segment is a field of the record, and each
further one a key of an object or an index of an array.

* `Path.ofText`, `Path.field_ofText`: the segments of a path, and the first of them;
* `Json.lookup?`, `Json.assign`: read and write below a value;
* `Record.lookup?`, `Record.assign`: read and write in a record.
-/

namespace Cadence

/-- A path: the field of the record and the segments below it. -/
structure Path where
  field : String
  below : List String := []
deriving DecidableEq, Repr

namespace Path

/-- Characters between dots; there is one more piece than dots. -/
def splitDots : List Char → List Char × List (List Char)
  | [] => ([], [])
  | c :: cs =>
    let (p, ps) := splitDots cs
    if c = '.' then ([], p :: ps) else (c :: p, ps)

/-- The path of a dotted text. -/
def ofText (s : String) : Path :=
  let (p, ps) := splitDots s.toList
  ⟨String.ofList p, ps.map String.ofList⟩

theorem field_ofText (s : String) :
    (ofText s).field = String.ofList (s.toList.takeWhile (· ≠ '.')) := by
  have first (cs : List Char) : (splitDots cs).1 = cs.takeWhile (· ≠ '.') := by
    induction cs with
    | nil => rfl
    | cons c cs ih => by_cases dot : c = '.' <;> simp [splitDots, dot, ih]
  exact congrArg String.ofList (first s.toList)

/-- The array index that a segment stands for. -/
def index? (segment : String) : Option Nat :=
  (Text.readUnsigned Word.largest segment.toList).toOption

end Path

namespace Json

/-- The value below `v` at the given segments. -/
def lookup? : List String → Json → Option Json
  | [], v => some v
  | s :: ss, .obj fs => (Entries.get? s fs).bind (lookup? ss)
  | s :: ss, .arr items => (Path.index? s).bind fun i => items[i]?.bind (lookup? ss)
  | _ :: _, _ => none

/-- Write a value at the given segments. What is no container on the way, and an array below which
the segment is no index, becomes an object; an index equal to the length appends, and one beyond it
changes nothing. -/
def assign (w : Json) : List String → Json → Json
  | [], _ => w
  | s :: ss, .obj fs => .obj (Entries.insert s (assign w ss ((Entries.get? s fs).getD .null)) fs)
  | s :: ss, .arr items =>
    match Path.index? s with
    | none => .obj [(s, assign w ss .null)]
    | some i =>
      match items[i]? with
      | some v => .arr (items.set i (assign w ss v))
      | none => if i = items.length then .arr (items ++ [assign w ss .null]) else .arr items
  | s :: ss, _ => .obj [(s, assign w ss .null)]

end Json

namespace Record

/-- The value of a record at a path. -/
def lookup? (r : Record) (p : Path) : Option Json := (r.get? p.field).bind (Json.lookup? p.below)

/-- Write a value into a record at a path. -/
def assign (r : Record) (p : Path) (w : Json) : Record :=
  r.insert p.field (Json.assign w p.below ((r.get? p.field).getD .null))

end Record

end Cadence
