import Cadence.Dict
import Cadence.Double.Basic
import Cadence.Word

/-!
# JSON values

Integers and doubles are different values. An object is the list of its entries; `Json.object`
builds the ones with ascending keys. A record is an object with its keys bundled.

* `Json`, `Record`;
* `Json.kind`: the name of a value's kind;
* `Json.int?`, `Json.string?`: views of a value as a signed word or a text.
-/

namespace Cadence

/-- A JSON value. -/
inductive Json
  | null
  | bool (b : Bool)
  | int (n : Int)
  | float (x : Double)
  | str (s : String)
  | arr (items : List Json)
  | obj (fields : List (String × Json))
deriving Repr, BEq, Inhabited

/-- An input or output record: an object at the top level. -/
abbrev Record := Dict Json

namespace Json

/-- The object of a record. -/
def ofRecord (r : Record) : Json := .obj r.entries

/-- The object with the given entries, the last one of a key winning. -/
def object (es : List (String × Json)) : Json := ofRecord (Dict.ofList es)

/-- The name of a value's kind. -/
def kind : Json → String
  | .null => "null"
  | .bool _ => "boolean"
  | .int _ | .float _ => "number"
  | .str _ => "string"
  | .arr _ => "array"
  | .obj _ => "object"

/-- An integer in the range of a signed 64-bit word. -/
def int? : Json → Option Int
  | .int n => if Word.isSigned n then some n else none
  | _ => none

/-- A number as a double. -/
def double? : Json → Option Double
  | .int n => some (.ofInt n)
  | .float x => some x
  | _ => none

/-- A text. -/
def string? : Json → Option String
  | .str s => some s
  | _ => none

/-- A double as a value; the values that are no numbers become null. -/
def ofDouble? : Option Double → Json
  | some x => .float x
  | none => .null

/-- A natural number as a value. -/
def nat (n : Nat) : Json := .int n

/-- An optional value, absent as null. -/
def orNull (f : α → Json) : Option α → Json
  | some a => f a
  | none => .null

end Json

end Cadence
