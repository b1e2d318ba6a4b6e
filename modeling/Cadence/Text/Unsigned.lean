/-!
# Unsigned integers in text

An unsigned integer is one optional `+` and then decimal digits. Characters are looked at from the
left, so of two faults the one further left is reported; at one position a character that is no
digit goes before an overflow.

* `Text.readUnsigned`: the value up to a maximum, or the first fault;
* `Text.UnsignedFault.message`: the wording of a fault.
-/

namespace Cadence.Text

/-- Why a text is no unsigned integer. -/
inductive UnsignedFault
  | empty
  | badDigit
  | tooLarge
deriving DecidableEq, Repr

/-- The wording of a fault. -/
def UnsignedFault.message : UnsignedFault → String
  | .empty => "cannot parse integer from empty string"
  | .badDigit => "invalid digit found in string"
  | .tooLarge => "number too large to fit in target type"

/-- The value of a decimal digit. -/
def digit? (c : Char) : Option Nat := if c.isDigit then some (c.toNat - 48) else none

/-- Read digits behind the value `acc`. -/
def readDigits (max : Nat) (acc : Nat) : List Char → Except UnsignedFault Nat
  | [] => .ok acc
  | c :: cs =>
    match digit? c with
    | none => .error .badDigit
    | some d => if max < acc * 10 + d then .error .tooLarge else readDigits max (acc * 10 + d) cs

/-- Read an unsigned integer of at most `max`. -/
def readUnsigned (max : Nat) (cs : List Char) : Except UnsignedFault Nat :=
  match cs with
  | [] => .error .empty
  | ['+'] => .error .badDigit
  | '+' :: ds => readDigits max 0 ds
  | ds => readDigits max 0 ds

end Cadence.Text
