import Cadence.Json.Decoder

/-!
# Declared outputs

An output spec names the outputs that an engine computes on every step. The declared type and axes
are carried along and not interpreted.

* `OutputType`, `OutputField`, `OutputSpec` and their written forms;
* `exportName`: the name under which a module exports an output.
-/

namespace Cadence

/-- The declared type of an output; any unknown name is `other`. -/
inductive OutputType
  | string | integer | float | boolean | array | object | other
deriving DecidableEq, Repr

namespace OutputType

/-- The written name. -/
def name : OutputType → String
  | .string => "string"
  | .integer => "integer"
  | .float => "float"
  | .boolean => "boolean"
  | .array => "array"
  | .object => "object"
  | .other => "other"

/-- The type of a name. -/
def ofName (s : String) : OutputType :=
  if s = "string" then .string
  else if s = "integer" then .integer
  else if s = "float" then .float
  else if s = "boolean" then .boolean
  else if s = "array" then .array
  else if s = "object" then .object
  else .other

theorem ofName_name (t : OutputType) : ofName t.name = t := by cases t <;> decide

/-- Read a type name. -/
def decoder : Decoder OutputType := fun depth d => (Decoder.variant depth d).map ofName

end OutputType

/-- The declaration of one output. -/
structure OutputField where
  type : Option OutputType := none
  axes : List String := []
deriving DecidableEq, Repr

namespace OutputField

/-- Read a declaration; everything in it may be left out. -/
def decoder : Decoder OutputField := fun depth d => do
  let fs ← Fields.read ["type", "axes"] depth d
  let type ← fs.withDefault "type" none OutputType.decoder.option
  let axes ← fs.withDefault "axes" [] Decoder.string.list
  return ⟨type, axes⟩

/-- The written form, the type before the axes; a missing type and empty axes are left out. -/
def toJson (f : OutputField) : Json :=
  .obj ((match f.type with
    | some t => [("type", .str t.name)]
    | none => []) ++ if f.axes.isEmpty then [] else [("axes", .arr (f.axes.map .str))])

end OutputField

/-- The outputs to compute on every step, by name. -/
abbrev OutputSpec := Dict OutputField

namespace OutputSpec

/-- Read an output spec. -/
def decoder : Decoder OutputSpec := OutputField.decoder.dict

/-- The written form. -/
def toJson (s : OutputSpec) : Json := .obj (s.map fun _ f => f.toJson).entries

end OutputSpec

/-- The name under which a module exports an output. -/
def exportName (output : String) : String := "_" ++ output

end Cadence
