import Cadence.Double.Basic

/-!
# Shortest decimal text of a double

The digits are the fewest that read back to the same double, and of those the nearest. A decimal
grid of `n` digits has a point that reads back exactly if one of the two grid points around the
value does, so the grids of 1, 2, ... 17 digits are tried in turn.

* `Double.digits`: the digits and their power of ten;
* `Double.toText`: plain notation for zero and magnitudes from `1e-5` below `1e16`, always with a
  point; otherwise one digit before the point and a signed exponent.
-/

namespace Cadence.Double

/-- The reals that round to a magnitude, as integers over the denominator `den`. -/
structure Rounding where
  low : Nat
  mid : Nat
  high : Nat
  den : Nat
  closed : Bool

/-- The interval of a double: half a step to either side, a quarter below a power of two; the ends
belong to it if the significand is even. -/
def rounding (x : Double) : Rounding :=
  let m := x.significand
  let below := if m = leadingBit ∧ 1 < x.exponentField then 1 else 2
  let q := x.exponent - 2
  let f := if 0 ≤ q then Nat.pow 2 q.toNat else 1
  let den := if 0 ≤ q then 1 else Nat.pow 2 (-q).toNat
  ⟨(4 * m - below) * f, 4 * m * f, (4 * m + 2) * f, den, m % 2 = 0⟩

/-- The number of decimal digits of a positive integer. -/
def digitCount (n : Nat) : Nat := (Nat.toDigits 10 n).length

/-- The power of ten of the leading digit. -/
def leadingPower (r : Rounding) : Int :=
  if r.den ≤ r.mid then (digitCount (r.mid / r.den) : Int) - 1
  else -(digitCount ((r.den + r.mid - 1) / r.mid - 1) : Int)

/-- The grid point `c * 10 ^ u` reads back to the double. -/
def Rounding.accepts (r : Rounding) (c : Nat) (u : Int) : Bool :=
  let s := if 0 ≤ u then (c * Nat.pow 10 u.toNat * r.den, 1) else (c * r.den, Nat.pow 10 (-u).toNat)
  if r.closed then r.low * s.2 ≤ s.1 && s.1 ≤ r.high * s.2
  else r.low * s.2 < s.1 && s.1 < r.high * s.2

/-- The grid points around the value on the grid `10 ^ u`, the nearer one first. -/
def Rounding.neighbours (r : Rounding) (u : Int) : List Nat :=
  let s :=
    if 0 ≤ u then (r.mid, r.den * Nat.pow 10 u.toNat) else (r.mid * Nat.pow 10 (-u).toNat, r.den)
  let c := s.1 / s.2
  if roundHalfEven s.1 s.2 = c then [c, c + 1] else [c + 1, c]

/-- Try the grids of `n`, `n + 1`, ... digits. -/
def searchDigits (r : Rounding) (lead : Int) (n : Nat) : Nat → Nat × Int
  | 0 => (r.mid / r.den, 0)
  | fuel + 1 =>
    let u := lead + 1 - n
    match (r.neighbours u).find? (r.accepts · u) with
    | some c => (c, u)
    | none => searchDigits r lead (n + 1) fuel

/-- The shortest digits of a nonzero double and the power of ten of the last one. -/
def digits (x : Double) : Nat × Int :=
  let r := x.rounding
  searchDigits r (leadingPower r) 1 17

/-- Digits without trailing zeros. -/
def significantDigits (n : Nat) : List Char :=
  (((Nat.toDigits 10 n).reverse).dropWhile (· = '0')).reverse

/-- The text of a magnitude with digits `ds`, the first one worth `10 ^ e`. -/
def layout (ds : List Char) (e : Int) : List Char :=
  if -5 ≤ e ∧ e < 16 then
    if 0 ≤ e then
      let whole := e.toNat + 1
      let frac := ds.drop whole
      ds.take whole ++ List.replicate (whole - ds.length) '0' ++
        '.' :: (if frac.isEmpty then ['0'] else frac)
    else '0' :: '.' :: (List.replicate ((-e).toNat - 1) '0' ++ ds)
  else
    ds.take 1 ++ (if ds.length ≤ 1 then [] else '.' :: ds.drop 1) ++
      'e' :: (if e < 0 then '-' else '+') :: Nat.toDigits 10 e.natAbs

/-- The shortest text that reads back to the double. -/
def toText (x : Double) : String :=
  let sign := if x.isNegative then ['-'] else []
  if x.isZero then String.ofList (sign ++ "0.0".toList)
  else
    let d := x.digits
    String.ofList (sign ++ layout (significantDigits d.1) (d.2 + digitCount d.1 - 1))

end Cadence.Double
