/-!
# Punycode

A label of a domain that has characters beyond ASCII is written with ASCII alone: first its ASCII
characters, then, from the smallest other character upwards, the distance from one insertion to the
next in digits whose thresholds follow a bias.

* `Punycode.digits`: a distance under a bias;
* `Punycode.encode`: a label.
-/

namespace Cadence.Punycode

/-- The character of a digit below 36. -/
def digit (n : Nat) : Char := if n < 26 then Char.ofNat (n + 97) else Char.ofNat (n + 22)

/-- The threshold of the digit at a position, which counts in steps of 36. -/
def threshold (bias position : Nat) : Nat := max 1 (min 26 (position - bias))

theorem threshold_bounds (bias position : Nat) :
    1 ≤ threshold bias position ∧ threshold bias position ≤ 26 := by
  simp only [threshold]; omega

/-- The digits of a distance from a position on. -/
def digits (bias position n : Nat) : List Char :=
  let t := threshold bias position
  if n < t then [digit n]
  else digit (t + (n - t) % (36 - t)) :: digits bias (position + 36) ((n - t) / (36 - t))
termination_by n
decreasing_by
  have h := threshold_bounds bias position
  exact Nat.lt_of_le_of_lt (Nat.div_le_self _ _) (by omega)

/-- Divide a distance by 35 until it is small, and count the divisions. -/
def shrink (n : Nat) : Nat × Nat :=
  if 455 < n then
    let (m, k) := shrink (n / 35)
    (m, k + 1)
  else (n, 0)
termination_by n
decreasing_by omega

/-- The bias after a distance, `written` being the number of characters written by then. -/
def nextBias (first : Bool) (written distance : Nat) : Nat :=
  let n := distance / (if first then 700 else 2)
  let (m, k) := shrink (n + n / written)
  36 * k + 36 * m / (m + 38)

/-- What has been written: digits, the distance since the last insertion, and the bias. -/
structure Progress where
  output : List Char := []
  distance : Nat := 0
  bias : Nat := 72
  written : Nat
  first : Bool := true

/-- Walk over a label and insert one character wherever it stands. -/
def insert (m : Nat) (p : Progress) (c : Char) : Progress :=
  if c.toNat < m then { p with distance := p.distance + 1 }
  else if c.toNat = m then
    { output := p.output ++ digits p.bias 36 p.distance
      distance := 0
      bias := nextBias p.first (p.written + 1) p.distance
      written := p.written + 1
      first := false }
  else p

/-- Insert characters in rising order; all below `low` have been inserted. -/
def insertAll (label : List Char) : Nat → List Nat → Progress → Progress
  | _, [], p => p
  | low, m :: ms, p =>
    let p := { p with distance := p.distance + (m - low) * (p.written + 1) }
    let p := label.foldl (insert m) p
    insertAll label (m + 1) ms { p with distance := p.distance + 1 }

/-- The ASCII form of a label, without its mark. -/
def encode (label : List Char) : List Char :=
  let ascii := label.filter (·.toNat < 128)
  let others := ((label.map Char.toNat).filter (128 ≤ ·)).mergeSort.eraseDups
  let p := insertAll label 128 others { written := ascii.length }
  (if ascii.isEmpty then [] else ascii ++ ['-']) ++ p.output

end Cadence.Punycode
