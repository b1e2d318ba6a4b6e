import Cadence.Json.Decoder

/-!
# Input forms

A form schema declares the fields of an input record and their types, nested to any depth.

* `FormField`, `FormSchema` and their written forms;
* `FormField.read`: a field from a document.
-/

namespace Cadence

/-- The declared type of an input field. -/
inductive FormField
  | string | integer | float | boolean
  | array (element : FormField)
  | object (fields : List (String × FormField))
deriving Repr, Inhabited, BEq

/-- The declared fields of an input record. -/
abbrev FormSchema := Dict FormField

namespace FormField

/-- The names of the field types, in the order of their numbers. -/
def typeNames : List String := ["string", "integer", "float", "boolean", "array", "object"]

/-- A type name; inside another field a type may also be given by its number. -/
def readType (inner : Bool) : Document → Option String
  | .str s => s
  | .number (some (.int n)) => if inner ∧ 0 ≤ n then typeNames[n.toNat]? else none
  | _ => none

/-- A field type that needs nothing else. -/
def plain? (name : String) : Option FormField :=
  if name = "string" then some .string
  else if name = "integer" then some .integer
  else if name = "float" then some .float
  else if name = "boolean" then some .boolean
  else none

/-- Read the fields of an object type, given how to read one field. -/
def readObject (readOne : Document → Option FormField) : Document → Option FormField
  | .obj members =>
    (members.mapM fun (m : Option String × Document) => do
      let k ← m.1
      let f ← readOne m.2
      return (k, f)).map fun fs => .object (Entries.ofList fs)
  | _ => none

/-- Read a field of at most so many nested arrays and objects. It is an object with a type, and an
`element` or `fields` where the type needs one, or an array of these in order. -/
def read : Nat → Bool → Document → Option FormField
  | depth + 1, inner, .obj members => do
    let given ← Fields.ofMembers ["type"] members
    let name ← readType inner (← Entries.get? "type" given)
    match plain? name with
    | some f => return f
    | none =>
      if name = "array" then do
        let given ← Fields.ofMembers ["element"] members
        return .array (← read depth true (← Entries.get? "element" given))
      else if name = "object" then do
        let given ← Fields.ofMembers ["fields"] members
        readObject (read depth true) (← Entries.get? "fields" given)
      else none
  | depth + 1, inner, .arr (t :: rest) => do
    let name ← readType inner t
    match plain? name, rest with
    | some f, [] => return f
    | none, [d] =>
      if name = "array" then return .array (← read depth true d)
      else if name = "object" then readObject (read depth true) d
      else none
    | _, _ => none
  | _, _, _ => none

mutual

/-- The written form. -/
def toJson : FormField → Json
  | .string => .obj [("type", .str "string")]
  | .integer => .obj [("type", .str "integer")]
  | .float => .obj [("type", .str "float")]
  | .boolean => .obj [("type", .str "boolean")]
  | .array f => .obj [("type", .str "array"), ("element", f.toJson)]
  | .object fs => .obj [("type", .str "object"), ("fields", .obj (fieldsToJson fs))]

/-- The written forms of named fields. -/
def fieldsToJson : List (String × FormField) → List (String × Json)
  | [] => []
  | (k, f) :: fs => (k, f.toJson) :: fieldsToJson fs

end

/-- Read a field; nothing in it is skipped, so all of it has to be a value. -/
def decoder : Decoder FormField := fun depth d => do
  let _ ← d.value? depth
  read depth false d

end FormField

namespace FormSchema

/-- Read a form schema. -/
def decoder : Decoder FormSchema := FormField.decoder.dict

/-- The written form. -/
def toJson (s : FormSchema) : Json := .obj (s.map fun _ f => f.toJson).entries

end FormSchema

end Cadence
