import Cadence.Json.Document

/-!
# Decoding typed payloads

A decoder takes a document, and the number of arrays and objects that may still be nested, to a
typed payload. A structure is written as an object or as an array of its fields in order. In an
object unknown members are skipped and a repeated member is refused; an array may leave out
trailing fields only if they have a default.

* `Decoder`: `Decoder.string`, `bool`, `unsigned`, `option`, `list`, `dict`, `record`, `variant`;
* `Fields`: the fields of a structure; `Fields.required`, `Fields.optional`, `Fields.withDefault`;
* `Decoder.run`: the payload of a byte string.
-/

namespace Cadence

/-- A payload from a document below at most so many further levels of nesting. -/
abbrev Decoder (α : Type) := Nat → Document → Option α

namespace Decoder

variable {α : Type}

/-- Any value. -/
def value : Decoder Json := fun depth d => d.value? depth

/-- A text. -/
def string : Decoder String
  | _, .str s => s
  | _, _ => none

/-- A truth value. -/
def bool : Decoder Bool
  | _, .bool b => some b
  | _, _ => none

/-- An integer from zero to `max`. -/
def unsigned (max : Nat) : Decoder Nat
  | _, .number (some (.int n)) => if 0 ≤ n ∧ n ≤ max then some n.toNat else none
  | _, _ => none

/-- A payload or null. -/
def option (f : Decoder α) : Decoder (Option α)
  | _, .null => some none
  | depth, d => (f depth d).map some

/-- An array of payloads. -/
def list (f : Decoder α) : Decoder (List α)
  | depth + 1, .arr items => items.mapM (f depth)
  | _, _ => none

/-- An object of payloads, all of them well-formed, the last one of a key winning. -/
def dict (f : Decoder α) : Decoder (Dict α)
  | depth + 1, .obj members =>
    (members.mapM fun (m : Option String × Document) => do
      let k ← m.1
      let v ← f depth m.2
      return (k, v)).map Dict.ofList
  | _, _ => none

/-- An object of values. -/
def record : Decoder Record := dict value

/-- The name of a constant: a text, or an object with that one name and null behind it. -/
def variant : Decoder String
  | _, .str s => s
  | _ + 1, .obj [(k, .null)] => k
  | _, _ => none

/-- The payload of a byte string. -/
def run (f : Decoder α) (bs : Bytes) : Option α := (Document.read? bs).bind (f Document.maxDepth)

/-- The payload of a text. -/
def runText (f : Decoder α) (s : String) : Option α := f.run (Utf8.encode s)

end Decoder

/-- The fields of a structure that were written, and whether they were written as an array. -/
structure Fields where
  depth : Nat
  positional : Bool
  given : List (String × Document)

namespace Fields

variable {α : Type}

/-- The members of an object whose key is one of `names`; none if a key is unreadable or a field is
repeated. -/
def ofMembers (names : List String) : List (Option String × Document) →
    Option (List (String × Document))
  | [] => some []
  | (k, d) :: ms => do
    let k ← k
    let r ← ofMembers names ms
    if names.contains k then
      if Entries.contains k r then none else return (k, d) :: r
    else return r

/-- The fields of a structure with the given field names. -/
def read (names : List String) : Decoder Fields
  | depth + 1, .obj members => (ofMembers names members).map fun given => ⟨depth, false, given⟩
  | depth + 1, .arr items =>
    if items.length ≤ names.length then some ⟨depth, true, names.zip items⟩ else none
  | _, _ => none

/-- A field that has to be written. -/
def required (fs : Fields) (name : String) (f : Decoder α) : Option α :=
  (Entries.get? name fs.given).bind (f fs.depth)

/-- A field that may be null, or absent from an object. -/
def optional (fs : Fields) (name : String) (f : Decoder α) : Option (Option α) :=
  match Entries.get? name fs.given with
  | some d => f.option fs.depth d
  | none => if fs.positional then none else some none

/-- A field that may be absent. -/
def withDefault (fs : Fields) (name : String) (a : α) (f : Decoder α) : Option α :=
  match Entries.get? name fs.given with
  | some d => f fs.depth d
  | none => some a

end Fields

end Cadence
