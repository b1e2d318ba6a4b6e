import Cadence.Text.Utf8

/-!
# Internet addresses in text

* `Address.endsInNumber`, `Address.readV4?`: four bytes, of which the last number may fill several;
  numbers may be octal or hexadecimal;
* `Address.v4Text`: the dotted form;
* `Address.readV6?`: eight groups of sixteen bits; two colons stand for one or more groups of zero,
  and the last two groups may be written as four bytes;
* `Address.v6Text`: the form in which the longest run of zero groups is left out.
-/

namespace Cadence.Address

/-- Parts between separators. -/
def splitOn (isSeparator : Char → Bool) : List Char → List (List Char)
  | [] => [[]]
  | c :: cs =>
    if isSeparator c then [] :: splitOn isSeparator cs
    else
      match splitOn isSeparator cs with
      | [] => [[c]]
      | p :: ps => (c :: p) :: ps

/-- The value of a digit. -/
def digit? (radix : Nat) (c : Char) : Option Nat :=
  let n := c.toNat
  let d :=
    if 48 ≤ n ∧ n ≤ 57 then n - 48
    else if 97 ≤ n ∧ n ≤ 102 then n - 87
    else if 65 ≤ n ∧ n ≤ 70 then n - 55
    else radix
  if d < radix then some d else none

/-- The value of digits. -/
def ofDigits? (radix : Nat) (cs : List Char) : Option Nat :=
  cs.foldlM (fun n c => (digit? radix c).map (n * radix + ·)) 0

/-! ## Four bytes -/

/-- A number: hexadecimal behind `0x`, octal behind `0`. -/
def number? : List Char → Option Nat
  | [] => none
  | ['0'] => some 0
  | '0' :: 'x' :: ds | '0' :: 'X' :: ds => ofDigits? 16 ds
  | '0' :: ds => ofDigits? 8 ds
  | ds => ofDigits? 10 ds

/-- The parts between the dots, without an empty last one. -/
def dotted (cs : List Char) : List (List Char) :=
  let parts := splitOn (· = '.') cs
  if parts.length ≥ 2 ∧ parts.getLast? = some [] then parts.dropLast else parts

/-- The last part of a domain is a number, so that the domain has to be an address. -/
def endsInNumber (cs : List Char) : Bool :=
  match (dotted cs).getLast? with
  | none | some [] => false
  | some part => part.all Char.isDigit || (number? part).isSome

/-- The value of four bytes: every number but the last is a byte, and the last one fills the
rest. -/
def combine (numbers : List Nat) : Option Nat :=
  match numbers.reverse with
  | [] => none
  | last :: r =>
    let bytes := r.reverse
    if 3 < bytes.length ∨ bytes.any (255 < ·) ∨ Nat.pow 256 (4 - bytes.length) ≤ last then none
    else some (bytes.foldl (fun n b => n * 256 + b) 0 * Nat.pow 256 (4 - bytes.length) + last)

/-- Read an address of four bytes. -/
def readV4? (cs : List Char) : Option Nat := ((dotted cs).mapM number?).bind combine

/-- The dotted form of an address. -/
def v4Text (n : Nat) : String :=
  ".".intercalate ([24, 16, 8, 0].map fun k => toString (n / Nat.pow 2 k % 256))

/-! ## Eight groups -/

/-- A byte without leading zeros. -/
def byte? (cs : List Char) : Option Nat :=
  if cs.isEmpty || (cs.head? = some '0' && cs.length ≠ 1) then none
  else (ofDigits? 10 cs).filter (· < 256)

/-- A group of up to four hexadecimal digits. -/
def group? (part : List Char) : Option (List Nat) :=
  if part.isEmpty || 4 < part.length then none else (ofDigits? 16 part).map ([·])

/-- The groups between colons. The last part may be four bytes. -/
def groups? : List (List Char) → Option (List Nat)
  | [] => some []
  | [part] =>
    if part.contains '.' then
      match (splitOn (· = '.') part).mapM byte? with
      | some [a, b, c, d] => some [a * 256 + b, c * 256 + d]
      | _ => none
    else group? part
  | part :: parts => do
    let g ← group? part
    let gs ← groups? parts
    return g ++ gs

/-- Groups of a text that may be empty. -/
def groupsOf? (cs : List Char) : Option (List Nat) :=
  if cs.isEmpty then some [] else groups? (splitOn (· = ':') cs)

/-- Cut a text at its first two colons. -/
def cutAtGap : List Char → Option (List Char × List Char)
  | [] => none
  | ':' :: ':' :: r => some ([], r)
  | c :: cs => (cutAtGap cs).map fun p => (c :: p.1, p.2)

/-- Read an address of eight groups. -/
def readV6? (cs : List Char) : Option (List Nat) :=
  match cutAtGap cs with
  | none => (groupsOf? cs).filter (·.length = 8)
  | some (before, behind) => do
    if before.contains '.' then none
    let a ← groupsOf? before
    let b ← groupsOf? behind
    if 7 < a.length + b.length then none
    else return a ++ List.replicate (8 - a.length - b.length) 0 ++ b

/-- The lengths of the runs of zeros that start at each place. -/
def zeroRuns : List Nat → List Nat
  | [] => []
  | g :: gs =>
    let rest := zeroRuns gs
    (if g = 0 then rest.headD 0 + 1 else 0) :: rest

/-- Groups in hexadecimal digits with colons between them. -/
def hexGroups (gs : List Nat) : String :=
  ":".intercalate (gs.map fun g => String.ofList (Nat.toDigits 16 g))

/-- The text of eight groups; the first of the longest runs of two or more zeros is left out. -/
def v6Text (gs : List Nat) : String :=
  let runs := zeroRuns gs
  let longest := runs.foldl max 0
  if longest < 2 then hexGroups gs
  else
    let start := runs.idxOf longest
    hexGroups (gs.take start) ++ "::" ++ hexGroups (gs.drop (start + longest))

end Cadence.Address
