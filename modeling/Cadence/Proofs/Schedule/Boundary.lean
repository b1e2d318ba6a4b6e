import Cadence.Schedule.Frame
import Mathlib.Order.Bounds.Defs
import Mathlib.Order.Defs.LinearOrder

/-!
# Boundaries

The boundary of a deadline is kept in a 64-bit word. It is the first multiple of the frame at or
after the deadline as long as that one fits the word.

* `firstBoundary`: the first multiple of the frame at or after a deadline;
* **`isLeast_firstBoundary`**, `firstBoundary_mono`: what it is, and how it grows;
* `boundary_eq_mod`, **`boundary_eq_iff`**: when the boundary of a deadline is the first one;
* `boundary_mono`: up to the end of the word, a later deadline has no earlier boundary.
-/

namespace Cadence

variable {frame deadline : Nat}

/-- The first multiple of the frame at or after a deadline. -/
def firstBoundary (frame deadline : Nat) : Nat := (deadline + frame - 1) / frame * frame

theorem le_firstBoundary (pos : 0 < frame) : deadline ≤ firstBoundary frame deadline := by
  have rest := Nat.mod_lt (deadline + frame - 1) pos
  have parted := Nat.div_add_mod (deadline + frame - 1) frame
  rw [Nat.mul_comm] at parted
  unfold firstBoundary
  omega

theorem firstBoundary_le (pos : 0 < frame) {b : Nat} (multiple : frame ∣ b) (le : deadline ≤ b) :
    firstBoundary frame deadline ≤ b := by
  obtain ⟨k, rfl⟩ := multiple
  have short : deadline + frame - 1 < frame * (k + 1) := by
    rw [Nat.mul_add, Nat.mul_one]
    omega
  have count : (deadline + frame - 1) / frame ≤ k :=
    Nat.le_of_lt_succ (Nat.div_lt_of_lt_mul short)
  unfold firstBoundary
  rw [Nat.mul_comm]
  exact Nat.mul_le_mul_left frame count

/-- **The first boundary is the least multiple of the frame at or after the deadline.** -/
theorem isLeast_firstBoundary (pos : 0 < frame) :
    IsLeast {b | frame ∣ b ∧ deadline ≤ b} (firstBoundary frame deadline) :=
  ⟨⟨Nat.dvd_mul_left _ _, le_firstBoundary pos⟩, fun _ mem => firstBoundary_le pos mem.1 mem.2⟩

theorem firstBoundary_mono (pos : 0 < frame) {d e : Nat} (le : d ≤ e) :
    firstBoundary frame d ≤ firstBoundary frame e :=
  firstBoundary_le pos (Nat.dvd_mul_left _ _) (Nat.le_trans le (le_firstBoundary pos))

theorem boundary_eq_mod (pos : 0 < frame) :
    boundary frame deadline = firstBoundary frame deadline % Word.count := by
  unfold boundary firstBoundary
  dsimp only
  rw [Nat.max_eq_left pos]

/-- **The boundary of a deadline is the first one exactly if a word can hold that one.** -/
theorem boundary_eq_iff (pos : 0 < frame) :
    boundary frame deadline = firstBoundary frame deadline ↔
      firstBoundary frame deadline < Word.count := by
  rw [boundary_eq_mod pos]
  constructor
  · intro eq
    rw [← eq]
    exact Nat.mod_lt _ (by decide)
  · exact Nat.mod_eq_of_lt

theorem boundary_mono (pos : 0 < frame) {d e : Nat} (late : firstBoundary frame e < Word.count)
    (le : d ≤ e) : boundary frame d ≤ boundary frame e := by
  have first := firstBoundary_mono pos le
  rw [(boundary_eq_iff pos).mpr late, (boundary_eq_iff pos).mpr (Nat.lt_of_le_of_lt first late)]
  exact first

end Cadence
