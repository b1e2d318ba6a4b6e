import Cadence.Text.Utf8

/-!
# Little-endian words

A word of `w` bytes holds a natural number below `256 ^ w`, its lowest byte first.

* `Little.encode`, `Little.value`: writing and reading a word;
* **`Little.value_encode`**: a number that fits is read back.
-/

namespace Cadence.Little

/-- The lowest `w` bytes of a number, lowest first. -/
def encode : Nat → Nat → Bytes
  | 0, _ => []
  | w + 1, n => UInt8.ofNat (n % 256) :: encode w (n / 256)

/-- The number whose bytes are given, lowest first. -/
def value : Bytes → Nat
  | [] => 0
  | b :: r => b.toNat + 256 * value r

@[simp] theorem length_encode (w n : Nat) : (encode w n).length = w := by
  induction w generalizing n with
  | zero => rfl
  | succ w ih => simp [encode, ih]

/-- **A number that fits is read back.** -/
theorem value_encode {w n : Nat} (h : n < Nat.pow 256 w) : value (encode w n) = n := by
  induction w generalizing n with
  | zero => simp [encode, value, Nat.lt_one_iff.1 h]
  | succ w ih =>
    have hw : Nat.pow 256 (w + 1) = Nat.pow 256 w * 256 := rfl
    have hq : n / 256 < Nat.pow 256 w := Nat.div_lt_of_lt_mul (by omega)
    have hb : (UInt8.ofNat (n % 256)).toNat = n % 256 := Utf8.toNat_ofNat (by omega)
    rw [encode, value, ih hq, hb]
    omega

end Cadence.Little
