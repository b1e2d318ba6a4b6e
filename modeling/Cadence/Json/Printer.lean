import Cadence.Json.Basic
import Cadence.Double.Shortest

/-!
# JSON text

Values are written without blanks, members in the order of the object. Strings escape the quote,
the backslash and the control characters below U+0020, and nothing else.

* `Json.toChars`, `Json.toText`: the text of a value;
* `Json.layout`, `Json.toLines`: the same over several lines, with two blanks for every level.
-/

namespace Cadence.Json

/-- The escape of a control character without a letter of its own. -/
def escapeUnit (c : Char) : List Char :=
  '\\' :: 'u' :: '0' :: '0' :: Nat.digitChar (c.toNat / 16) :: [Nat.digitChar (c.toNat % 16)]

/-- A character inside a string. -/
def escapeChar (c : Char) : List Char :=
  if c = '"' then ['\\', '"']
  else if c = '\\' then ['\\', '\\']
  else if c = '\x08' then ['\\', 'b']
  else if c = '\x0c' then ['\\', 'f']
  else if c = '\n' then ['\\', 'n']
  else if c = '\r' then ['\\', 'r']
  else if c = '\t' then ['\\', 't']
  else if c.toNat < 0x20 then escapeUnit c
  else [c]

/-- A string with its quotes. -/
def stringChars (s : String) : List Char := '"' :: s.toList.flatMap escapeChar ++ ['"']

mutual

/-- The characters of a value. -/
def toChars : Json → List Char
  | .null => "null".toList
  | .bool b => (if b then "true" else "false").toList
  | .int n => (toString n).toList
  | .float x => if x.isFinite then x.toText.toList else "null".toList
  | .str s => stringChars s
  | .arr items => '[' :: itemsChars items ++ [']']
  | .obj fields => '\x7b' :: fieldsChars fields ++ ['\x7d']

/-- Array items separated by commas. -/
def itemsChars : List Json → List Char
  | [] => []
  | v :: vs => toChars v ++ (if vs.isEmpty then [] else ',' :: itemsChars vs)

/-- Object members separated by commas. -/
def fieldsChars : List (String × Json) → List Char
  | [] => []
  | (k, v) :: vs =>
    stringChars k ++ ':' :: toChars v ++ (if vs.isEmpty then [] else ',' :: fieldsChars vs)

end

/-- The text of a value. -/
def toText (v : Json) : String := String.ofList v.toChars

/-! ## Over several lines -/

/-- The start of a line at a level. -/
def newLine (level : Nat) : List Char := '\n' :: List.replicate (2 * level) ' '

mutual

/-- The characters of a value whose lines start at a level. Empty arrays and objects stay on one
line. -/
def layout (level : Nat) : Json → List Char
  | .arr [] => ['[', ']']
  | .arr (v :: vs) => '[' :: layoutItems (level + 1) (v :: vs) ++ newLine level ++ [']']
  | .obj [] => ['\x7b', '\x7d']
  | .obj (f :: fs) => '\x7b' :: layoutFields (level + 1) (f :: fs) ++ newLine level ++ ['\x7d']
  | v => v.toChars

/-- Array items, each on lines of its own. -/
def layoutItems (level : Nat) : List Json → List Char
  | [] => []
  | v :: vs =>
    newLine level ++ layout level v ++ (if vs.isEmpty then [] else ',' :: layoutItems level vs)

/-- Object members, each on lines of its own. -/
def layoutFields (level : Nat) : List (String × Json) → List Char
  | [] => []
  | (k, v) :: vs =>
    newLine level ++ stringChars k ++ ':' :: ' ' :: layout level v ++
      (if vs.isEmpty then [] else ',' :: layoutFields level vs)

end

/-- The lines of a value. -/
def toLines (v : Json) : List String := (String.ofList (v.layout 0)).splitOn "\n"

end Cadence.Json
