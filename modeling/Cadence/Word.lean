/-!
# Words

The bounds of integers of a fixed width, as numbers.

* `Word.count`, `Word.largest`: 64-bit words;
* `Word.count32`, `Word.largest32`: 32-bit words;
* `Word.isSigned`, `Word.wrapped`: signed 64-bit words, and the one that a number wraps to.
-/

namespace Cadence.Word

/-- The number of 64-bit words. -/
def count : Nat := 18446744073709551616

/-- The largest 64-bit word. -/
def largest : Nat := 18446744073709551615

/-- The number of 32-bit words. -/
def count32 : Nat := 4294967296

/-- The largest 32-bit word. -/
def largest32 : Nat := 4294967295

/-- The magnitude of the least signed 64-bit word. -/
def leastSigned : Nat := 9223372036854775808

/-- The number is a signed 64-bit word. -/
def isSigned (n : Int) : Bool := -9223372036854775808 ≤ n && n < 9223372036854775808

/-- The signed 64-bit word that a number wraps to. -/
def wrapped (n : Int) : Int := n.bmod count

theorem largest_lt_count : largest < count := by decide

end Cadence.Word
