import Cadence.Form.Field

/-!
# Checking an input against a form

Every declared field has to be present and to conform to its type, at every depth; fields beyond the
declared ones are not looked at. A fault leads from the field to the first position that does not
conform, in the order of items and keys.

* `FormFault`: the position and kind of a fault, `FormFault.message` its wording;
* `FormField.check`: the first fault of a value;
* `FieldError`, `FormSchema.check`: one error for each offending field of a record;
* `validationMessage`: all errors as one text.
-/

namespace Cadence

/-- Why a value does not conform. -/
inductive FormFault
  | missing
  | mismatch (expected got : String)
  | item (index : Nat) (inner : FormFault)
  | entry (key : String) (inner : FormFault)
deriving Repr, DecidableEq

/-- The wording of a fault: the position, innermost last, and what is wrong there. -/
def FormFault.message : FormFault → String
  | .missing => "Required field missing"
  | .mismatch expected got => "Expected " ++ expected ++ ", got " ++ got
  | .item i f => "[" ++ toString i ++ "]: " ++ f.message
  | .entry k f => k ++ ": " ++ f.message

namespace Json

/-- An integer, or a double with an integral value. -/
def isInteger : Json → Bool
  | .int _ => true
  | .float x => x.isIntegral
  | _ => false

/-- A number. -/
def isNumber : Json → Bool
  | .int _ | .float _ => true
  | _ => false

end Json

namespace FormField

/-- The fault of a value of the wrong kind. -/
def expect (ok : Bool) (expected : String) (v : Json) : Option FormFault :=
  if ok then none else some (.mismatch expected v.kind)

/-- The first fault among items, counted from `i`. -/
def firstItem (f : Json → Option FormFault) (i : Nat) : List Json → Option FormFault
  | [] => none
  | v :: vs =>
    match f v with
    | some e => some (.item i e)
    | none => firstItem f (i + 1) vs

mutual

/-- The first fault of a value. -/
def check : FormField → Json → Option FormFault
  | .string, v => expect (v matches .str _) "string" v
  | .integer, v => expect v.isInteger "integer" v
  | .float, v => expect v.isNumber "number" v
  | .boolean, v => expect (v matches .bool _) "boolean" v
  | .array e, v =>
    match v with
    | .arr items => firstItem (check e) 0 items
    | _ => expect false "array" v
  | .object fs, v =>
    match v with
    | .obj entries => checkEntries fs entries
    | _ => expect false "object" v

/-- The first fault among the declared keys of an object. -/
def checkEntries : List (String × FormField) → List (String × Json) → Option FormFault
  | [], _ => none
  | (k, f) :: fs, entries =>
    match Entries.get? k entries with
    | none => some (.entry k .missing)
    | some v =>
      match check f v with
      | some e => some (.entry k e)
      | none => checkEntries fs entries

end

end FormField

/-- What is wrong with one top-level field of an input. -/
structure FieldError where
  field : String
  message : String
  path : List String := [field]
deriving DecidableEq, Repr

namespace FieldError

/-- Read an error. -/
def decoder : Decoder FieldError := fun depth d => do
  let fs ← Fields.read ["field", "message", "path"] depth d
  let field ← fs.required "field" Decoder.string
  let message ← fs.required "message" Decoder.string
  let path ← fs.required "path" Decoder.string.list
  return ⟨field, message, path⟩

/-- The written form. -/
def toJson (e : FieldError) : Json :=
  .obj [("field", .str e.field), ("message", .str e.message), ("path", .arr (e.path.map .str))]

end FieldError

/-- The fault of a declared field of a record. -/
def FormField.checkIn (f : FormField) (name : String) (input : Record) : Option FormFault :=
  match input.get? name with
  | none => some .missing
  | some v => f.check v

/-- One error for each declared field that is missing or does not conform, by ascending name. -/
def FormSchema.check (s : FormSchema) (input : Record) : List FieldError :=
  s.toList.filterMap fun e => (e.2.checkIn e.1 input).map fun fault => ⟨e.1, fault.message, [e.1]⟩

/-- All errors as one text, one line each; no errors have no text. -/
def validationMessage : List FieldError → String
  | [] => ""
  | es => "Input validation errors:" ++ String.join (es.map fun e =>
      "\n  • " ++ e.field ++ ": " ++ e.message)

end Cadence
