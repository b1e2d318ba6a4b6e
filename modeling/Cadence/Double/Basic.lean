/-!
# Doubles

A double is its 64-bit pattern, so equality is equality of patterns and every operation is exact
arithmetic on natural numbers followed by one rounding.

* `Double.significand`, `Double.exponent`: the magnitude is `significand * 2 ^ exponent`;
* `Double.ofRatio`: the nearest double of a fraction, ties to the even pattern;
* `Double.ofDecimal`: a decimal literal, scaled once by the nearest double of its power of ten;
* `Double.double`, `Double.half`: multiplication and division by two.
-/

namespace Cadence

/-- A double by its bit pattern. -/
structure Double where
  bits : UInt64
deriving DecidableEq, Repr

namespace Double

/-- The bit of the sign. -/
def signBit : Nat := 9223372036854775808

/-- The bit in front of the fraction field, two to the power of 52. -/
def leadingBit : Nat := 4503599627370496

/-- The sign bit is set. -/
def isNegative (x : Double) : Bool := signBit ≤ x.bits.toNat

/-- The exponent field. -/
def exponentField (x : Double) : Nat := x.bits.toNat / leadingBit % 2048

/-- The fraction field. -/
def fractionField (x : Double) : Nat := x.bits.toNat % leadingBit

/-- Neither infinite nor a NaN. -/
def isFinite (x : Double) : Bool := x.exponentField < 2047

/-- The integer part of the magnitude's binary form. -/
def significand (x : Double) : Nat :=
  if x.exponentField = 0 then x.fractionField else leadingBit + x.fractionField

/-- The power of two that scales the significand. -/
def exponent (x : Double) : Int := (max x.exponentField 1 : Nat) - 1075

/-- The magnitude as a fraction. -/
def ratio (x : Double) : Nat × Nat :=
  if 0 ≤ x.exponent then (x.significand * Nat.pow 2 x.exponent.toNat, 1)
  else (x.significand, Nat.pow 2 (-x.exponent).toNat)

/-- Zero of either sign. -/
def isZero (x : Double) : Bool := x.significand = 0

/-- The value is an integer. -/
def isIntegral (x : Double) : Bool := x.isFinite && x.ratio.1 % x.ratio.2 = 0

/-- Nearest integer of a fraction, a half going to the even neighbour. -/
def roundHalfEven (num den : Nat) : Nat :=
  if 2 * (num % den) < den then num / den
  else if den < 2 * (num % den) then num / den + 1
  else num / den + num / den % 2

/-- The fraction `num / den / 2 ^ q`. -/
def shifted (num den : Nat) (q : Int) : Nat × Nat :=
  if 0 ≤ q then (num, den * Nat.pow 2 q.toNat) else (num * Nat.pow 2 (-q).toNat, den)

/-- The power of two that leaves `num / den` a significand of 53 bits, or fewer at the bottom of
the range. -/
def scaleOf (num den : Nat) : Int :=
  let q := max ((num.log2 : Int) - den.log2 - 53) (-1074)
  let s := shifted num den q
  if 2 * leadingBit ≤ s.1 / s.2 then q + 1 else q

/-- Bit pattern of the nearest magnitude; the significand's leading bit counts as one step of the
exponent field. -/
def magnitudeBits (num den : Nat) : Nat :=
  if num = 0 then 0
  else
    let q := scaleOf num den
    let s := shifted num den q
    (q + 1074).toNat * leadingBit + roundHalfEven s.1 s.2

/-- The pattern of a signed magnitude. -/
def ofMagnitude (negative : Bool) (m : Nat) : Double :=
  ⟨UInt64.ofNat (if negative then signBit + m else m)⟩

/-- The nearest double of a fraction, none beyond the largest one. -/
def ofRatio (negative : Bool) (num den : Nat) : Option Double :=
  let m := magnitudeBits num den
  if m < 2047 * leadingBit then some (ofMagnitude negative m) else none

/-- The nearest double of an integer. -/
def ofInt (n : Int) : Double := ofMagnitude (n < 0) (magnitudeBits n.natAbs 1)

/-- The nearest double of `10 ^ k`, as an integer. -/
def tenPower (k : Nat) : Nat :=
  let r := (ofMagnitude false (magnitudeBits (Nat.pow 10 k) 1)).ratio
  r.1 / r.2

/-- Divide by `10 ^ k`, at most `10 ^ 308` at a time. -/
def divideTen (x : Double) (k : Nat) : Double :=
  let r := x.ratio
  if k ≤ 308 then ofMagnitude x.isNegative (magnitudeBits r.1 (r.2 * tenPower k))
  else if x.isZero then x
  else divideTen (ofMagnitude x.isNegative (magnitudeBits r.1 (r.2 * tenPower 308))) (k - 308)
termination_by k

/-- The double of `± n * 10 ^ e`: the nearest double of `n`, multiplied or divided by the nearest
double of the power; none if the product is too large. -/
def ofDecimal (negative : Bool) (n : Nat) (e : Int) : Option Double :=
  let x := ofMagnitude negative (magnitudeBits n 1)
  if e < 0 then some (divideTen x (-e).toNat)
  else if e.toNat ≤ 308 then ofRatio negative (x.ratio.1 * tenPower e.toNat) x.ratio.2
  else if x.isZero then some x
  else none

/-- Twice a double, none if that is too large. -/
def double (x : Double) : Option Double := ofRatio x.isNegative (2 * x.ratio.1) x.ratio.2

/-- Half a double. -/
def half (x : Double) : Option Double := ofRatio x.isNegative x.ratio.1 (2 * x.ratio.2)

end Double

end Cadence
