/-!
# White space

* `Text.isBlank`: the characters with the Unicode property White_Space;
* `Text.trim`: a text without the white space at its ends.
-/

namespace Cadence.Text

/-- White space in the sense of Unicode, which is wider than the ASCII blanks. -/
def isBlank (c : Char) : Bool :=
  let n := c.toNat
  (9 ≤ n && n ≤ 13) || n = 0x20 || n = 0x85 || n = 0xA0 || n = 0x1680 ||
    (0x2000 ≤ n && n ≤ 0x200A) || n = 0x2028 || n = 0x2029 || n = 0x202F || n = 0x205F || n = 0x3000

/-- Characters without the white space at either end. -/
def trimChars (cs : List Char) : List Char :=
  ((cs.dropWhile isBlank).reverse.dropWhile isBlank).reverse

/-- A text without the white space at either end. -/
def trim (s : String) : String := String.ofList (trimChars s.toList)

end Cadence.Text
