import Cadence.Json.Basic
import Cadence.Text.Utf8
import Cadence.Word

/-!
# JSON documents

A document is a JSON text as it was read: members in their order with duplicates kept, and parts
that no value can hold (a number beyond the doubles, a half of a surrogate pair, bytes that are no
text) marked instead of refused, because a reader that skips a member does not look inside it. The
text is read from bytes; nothing may follow it but blanks.

* `Document`, `Document.read?`: the document of a byte string;
* `Document.value?`: the value of a document, of at most so many nested arrays and objects;
* `Json.ofBytes?`, `Json.ofText?`: values of byte strings and texts.
-/

namespace Cadence

/-- A JSON text as it was read. A number, string or key is none if no value can hold it. -/
inductive Document
  | null
  | bool (b : Bool)
  | number (n : Option Json)
  | str (s : Option String)
  | arr (items : List Document)
  | obj (members : List (Option String × Document))
deriving Inhabited

namespace Document

/-! ## Characters -/

/-- The ASCII code of a character. -/
def code (c : Char) : UInt8 := UInt8.ofNat c.toNat

/-- A blank between tokens. -/
def isGap (b : UInt8) : Bool := b = 0x20 || b = 0x0A || b = 0x0D || b = 0x09

/-- Bytes behind the blanks. -/
def skipGap (bs : Bytes) : Bytes := bs.dropWhile isGap

/-- The value of an ASCII digit. -/
def digit? (b : UInt8) : Option Nat :=
  if 48 ≤ b.toNat ∧ b.toNat ≤ 57 then some (b.toNat - 48) else none

/-- The value of a hexadecimal digit. -/
def hexDigit? (b : UInt8) : Option Nat :=
  let n := b.toNat
  if 48 ≤ n ∧ n ≤ 57 then some (n - 48)
  else if 65 ≤ n ∧ n ≤ 70 then some (n - 55)
  else if 97 ≤ n ∧ n ≤ 102 then some (n - 87)
  else none

/-- Digits at the front and the bytes behind them. -/
def spanDigits (bs : Bytes) : List Nat × Bytes :=
  let isDigit := fun b => (digit? b).isSome
  ((bs.takeWhile isDigit).filterMap digit?, bs.dropWhile isDigit)

/-! ## Numbers -/

/-- The parts of a number. -/
structure Numeral where
  negative : Bool
  whole : List Nat
  fraction : Option (List Nat)
  power : Option (Bool × List Nat)

/-- The value of digits. -/
def ofDigits (ds : List Nat) : Nat := ds.foldl (fun n d => n * 10 + d) 0

/-- The leading digits that fit a 64-bit word, and the number of those that do not. -/
def leading (n : Nat) : List Nat → Nat × Nat
  | [] => (n, 0)
  | d :: ds => if Word.count ≤ n * 10 + d then (n, ds.length + 1) else leading (n * 10 + d) ds

/-- Append fraction digits while the significand fits a 64-bit word; each one lowers the power. -/
def appendFraction (n : Nat) (e : Int) : List Nat → Nat × Int
  | [] => (n, e)
  | d :: ds => if Word.count ≤ n * 10 + d then (n, e) else appendFraction (n * 10 + d) (e - 1) ds

/-- The value of a number. An integer within the words is an integer, except for minus zero; all
else is the double of its leading digits, none if it is too large. -/
def Numeral.value? (t : Numeral) : Option Json :=
  let (n, dropped) := leading 0 t.whole
  match t.fraction, t.power with
  | none, none =>
    if dropped = 0 ∧ !t.negative then some (.int n)
    else if dropped = 0 ∧ 0 < n ∧ n ≤ Word.leastSigned then some (.int (-n))
    else (Double.ofDecimal t.negative n dropped).map .float
  | _, _ =>
    let (n, e) := appendFraction n dropped (t.fraction.getD [])
    match t.power with
    | none => (Double.ofDecimal t.negative n e).map .float
    | some (down, ds) =>
      let p := ofDigits ds
      if 2147483648 ≤ p then
        if n ≠ 0 ∧ !down then none else some (.float (.ofMagnitude t.negative 0))
      else (Double.ofDecimal t.negative n (if down then e - p else e + p)).map .float

/-- A minus in front, and the bytes behind it. -/
def readSign : Bytes → Bool × Bytes
  | b :: r => if b = code '-' then (true, r) else (false, b :: r)
  | [] => (false, [])

/-- A point with digits behind it, if there is a point. -/
def readFraction : Bytes → Option (Option (List Nat) × Bytes)
  | b :: r =>
    if b = code '.' then
      let (ds, r) := spanDigits r
      if ds.isEmpty then none else some (some ds, r)
    else some (none, b :: r)
  | [] => some (none, [])

/-- The sign of a power; a plus may be left out. -/
def readPowerSign : Bytes → Bool × Bytes
  | s :: r =>
    if s = code '-' then (true, r)
    else if s = code '+' then (false, r)
    else (false, s :: r)
  | [] => (false, [])

/-- A power of ten, if there is one. -/
def readPower : Bytes → Option (Option (Bool × List Nat) × Bytes)
  | b :: r =>
    if b = code 'e' || b = code 'E' then
      let (down, r) := readPowerSign r
      let (ds, r) := spanDigits r
      if ds.isEmpty then none else some (some (down, ds), r)
    else some (none, b :: r)
  | [] => some (none, [])

/-- Read a number that starts with a digit or a minus. -/
def readNumeral (bs : Bytes) : Option (Numeral × Bytes) := do
  let (negative, bs) := readSign bs
  let (whole, bs) := spanDigits bs
  if whole.isEmpty || (whole.head? = some 0 && 1 < whole.length) then none
  let (fraction, bs) ← readFraction bs
  let (power, bs) ← readPower bs
  return (⟨negative, whole, fraction, power⟩, bs)

/-! ## Strings -/

/-- Four hexadecimal digits. -/
def readHex4 : Bytes → Option (Nat × Bytes)
  | a :: b :: c :: d :: r => do
    let w ← hexDigit? a
    let x ← hexDigit? b
    let y ← hexDigit? c
    let z ← hexDigit? d
    return (((w * 16 + x) * 16 + y) * 16 + z, r)
  | _ => none

/-- A piece of a string: bytes that stand for themselves, an escaped code unit, or a one-letter
escape. -/
inductive Piece
  | raw (b : UInt8)
  | escaped (c : Char)
  | unit (n : Nat)

/-- The character of a one-letter escape. -/
def simpleEscape? (b : UInt8) : Option Char :=
  if b = code '"' then some '"'
  else if b = code '\\' then some '\\'
  else if b = code '/' then some '/'
  else if b = code 'b' then some '\x08'
  else if b = code 'f' then some '\x0c'
  else if b = code 'n' then some '\n'
  else if b = code 'r' then some '\r'
  else if b = code 't' then some '\t'
  else none

/-- Read the pieces of a string up to its closing quote, most recent piece first. -/
def readPieces : Nat → List Piece → Bytes → Option (List Piece × Bytes)
  | 0, _, _ => none
  | _ + 1, _, [] => none
  | fuel + 1, acc, b :: r =>
    if b = code '"' then some (acc, r)
    else if b = code '\\' then
      match r with
      | [] => none
      | e :: r =>
        if e = code 'u' then
          match readHex4 r with
          | some (n, r) => readPieces fuel (.unit n :: acc) r
          | none => none
        else
          match simpleEscape? e with
          | some c => readPieces fuel (.escaped c :: acc) r
          | none => none
    else if b.toNat < 0x20 then none
    else readPieces fuel (.raw b :: acc) r

/-- The bytes of a string's pieces; code units of a surrogate pair must stand next to each other. -/
def assemble : List Piece → Option Bytes
  | [] => some []
  | .raw b :: ps => (assemble ps).map (b :: ·)
  | .escaped c :: ps => (assemble ps).map (String.utf8EncodeChar c ++ ·)
  | .unit n :: ps =>
    if 0xDC00 ≤ n ∧ n < 0xE000 then none
    else if 0xD800 ≤ n ∧ n < 0xDC00 then
      match ps with
      | .unit m :: ps =>
        if 0xDC00 ≤ m ∧ m < 0xE000 then
          let c := Char.ofNat (0x10000 + (n - 0xD800) * 0x400 + (m - 0xDC00))
          (assemble ps).map (String.utf8EncodeChar c ++ ·)
        else none
      | _ => none
    else (assemble ps).map (String.utf8EncodeChar (Char.ofNat n) ++ ·)

/-- Read a string behind its opening quote. -/
def readString (bs : Bytes) : Option (Option String × Bytes) := do
  let (pieces, r) ← readPieces (bs.length + 1) [] bs
  return ((assemble pieces.reverse).bind Utf8.decode?, r)

/-! ## Documents -/

/-- The bytes behind a fixed word. -/
def expect (w : String) (bs : Bytes) : Option Bytes :=
  let e := Utf8.encode w
  if e.isPrefixOf bs then some (bs.drop e.length) else none

mutual

/-- Read one document, blanks before it allowed. -/
def readDocument : Nat → Bytes → Option (Document × Bytes)
  | 0, _ => none
  | fuel + 1, bs =>
    match skipGap bs with
    | [] => none
    | b :: r =>
      if b = code '"' then (readString r).map fun (s, r) => (.str s, r)
      else if b = code '[' then
        match skipGap r with
        | c :: r' => if c = code ']' then some (.arr [], r') else readItems fuel [] (c :: r')
        | [] => none
      else if b = code '\x7b' then
        match skipGap r with
        | c :: r' => if c = code '\x7d' then some (.obj [], r') else readMembers fuel [] (c :: r')
        | [] => none
      else if b = code 'n' then (expect "ull" r).map (.null, ·)
      else if b = code 't' then (expect "rue" r).map (.bool true, ·)
      else if b = code 'f' then (expect "alse" r).map (.bool false, ·)
      else (readNumeral (b :: r)).map fun (t, r) => (.number t.value?, r)

/-- Read the items of an array, most recent item first in `acc`. -/
def readItems : Nat → List Document → Bytes → Option (Document × Bytes)
  | 0, _, _ => none
  | fuel + 1, acc, bs =>
    match readDocument fuel bs with
    | none => none
    | some (d, r) =>
      match skipGap r with
      | c :: r' =>
        if c = code ']' then some (.arr (d :: acc).reverse, r')
        else if c = code ',' then readItems fuel (d :: acc) r'
        else none
      | [] => none

/-- Read the members of an object, most recent member first in `acc`. -/
def readMembers : Nat → List (Option String × Document) → Bytes → Option (Document × Bytes)
  | 0, _, _ => none
  | fuel + 1, acc, bs =>
    match skipGap bs with
    | q :: r =>
      if q ≠ code '"' then none
      else
        match readString r with
        | none => none
        | some (k, r) =>
          match skipGap r with
          | c :: r =>
            if c ≠ code ':' then none
            else
              match readDocument fuel r with
              | none => none
              | some (d, r) =>
                match skipGap r with
                | c :: r =>
                  if c = code '\x7d' then some (.obj ((k, d) :: acc).reverse, r)
                  else if c = code ',' then readMembers fuel ((k, d) :: acc) r
                  else none
                | [] => none
          | [] => none
    | [] => none

end

/-- The document of a byte string. -/
def read? (bs : Bytes) : Option Document := do
  let (d, r) ← readDocument (2 * bs.length + 1) bs
  if (skipGap r).isEmpty then return d else none

/-- The most arrays and objects that may be nested. -/
def maxDepth : Nat := 127

mutual

/-- The value of a document with at most `depth` nested arrays and objects; the last member of a
key wins. -/
def value? (depth : Nat) : Document → Option Json
  | .null => some .null
  | .bool b => some (.bool b)
  | .number n => n
  | .str s => s.map .str
  | .arr items => if depth = 0 then none else (values? (depth - 1) items).map .arr
  | .obj members =>
    if depth = 0 then none
    else (entries? (depth - 1) members).map fun es => .obj (Entries.ofList es)

/-- The values of array items. -/
def values? (depth : Nat) : List Document → Option (List Json)
  | [] => some []
  | d :: ds => do
    let v ← value? depth d
    let vs ← values? depth ds
    return v :: vs

/-- The entries of object members. -/
def entries? (depth : Nat) : List (Option String × Document) → Option (List (String × Json))
  | [] => some []
  | (k, d) :: ds => do
    let k ← k
    let v ← value? depth d
    let vs ← entries? depth ds
    return (k, v) :: vs

end

mutual

/-- The document of a value. -/
def ofJson : Json → Document
  | .null => .null
  | .bool b => .bool b
  | .int n => .number (some (.int n))
  | .float x => .number (some (.float x))
  | .str s => .str (some s)
  | .arr items => .arr (ofItems items)
  | .obj fields => .obj (ofFields fields)

/-- The documents of array items. -/
def ofItems : List Json → List Document
  | [] => []
  | v :: vs => ofJson v :: ofItems vs

/-- The members of object fields. -/
def ofFields : List (String × Json) → List (Option String × Document)
  | [] => []
  | (k, v) :: fs => (some k, ofJson v) :: ofFields fs

end

end Document

namespace Json

/-- The value of a byte string. -/
def ofBytes? (bs : Bytes) : Option Json := (Document.read? bs).bind (·.value? Document.maxDepth)

/-- The value of a text. -/
def ofText? (s : String) : Option Json := ofBytes? (Utf8.encode s)

end Json

end Cadence
