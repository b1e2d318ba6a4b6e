import Cadence.Clock.Errand
import Cadence.Proofs.Schedule.Service

/-!
# When the driver wakes up

The driver wakes up at the boundary of the earliest deadline, and takes it for the earliest boundary
of all. That is right up to the last boundary that a word can hold. A later one is cut down to a
word, which is no boundary behind the deadline at all.

* `firstBoundary_lt`, `isLeast_frames`: the first boundary, by the number of its frames;
* `not_le_boundary`: a boundary that is cut down is none behind the deadline;
* `FrameQueue.nextBoundary_le`: the driver does not oversleep;
* **`boundary_first_iff`**: when the boundary of a deadline is the first one behind it.
-/

namespace Cadence

variable {frame deadline : Nat}

/-! ## The first boundary -/

theorem firstBoundary_lt (pos : 0 < frame) : firstBoundary frame deadline < deadline + frame := by
  have le : firstBoundary frame deadline ≤ deadline + frame - 1 := Nat.div_mul_le_self _ _
  omega

theorem isLeast_frames (pos : 0 < frame) :
    IsLeast {k | deadline ≤ k * frame} ((deadline + frame - 1) / frame) := by
  refine ⟨le_firstBoundary pos, fun k le => ?_⟩
  have first : firstBoundary frame deadline ≤ k * frame :=
    firstBoundary_le pos (Nat.dvd_mul_left frame k) le
  exact Nat.le_of_mul_le_mul_right first pos

theorem not_le_boundary (pos : 0 < frame) (late : Word.count ≤ firstBoundary frame deadline) :
    ¬ (frame ∣ boundary frame deadline ∧ deadline ≤ boundary frame deadline) := by
  rintro ⟨multiple, le⟩
  have first : firstBoundary frame deadline ≤ boundary frame deadline :=
    firstBoundary_le pos multiple le
  have short : boundary frame deadline < Word.count := Nat.mod_lt _ (by decide)
  omega

theorem boundary_max_one (frame deadline : Nat) :
    boundary (max frame 1) deadline = boundary frame deadline := by
  unfold boundary
  rw [Nat.max_assoc, Nat.max_self]

/-! ## The driver -/

/-- **The driver does not oversleep** if a word can hold the first boundaries of all pending
tasks. -/
theorem FrameQueue.nextBoundary_le {q : FrameQueue} {b : Nat}
    (held : ∀ t ∈ q.pending, firstBoundary (max q.frame 1) t.deadline < Word.count)
    (next : q.nextBoundary = some b) : ∀ t ∈ q.pending, b ≤ boundary q.frame t.deadline := by
  obtain ⟨first, -, rfl, earliest⟩ := exists_of_nextBoundary next
  intro t pending
  have mono := boundary_mono (Nat.le_max_right q.frame 1) (held t pending) (earliest t pending)
  rwa [boundary_max_one, boundary_max_one] at mono

/-! ## When a boundary is the first one -/

/-- **When the boundary of a deadline is the first one.** Count the boundaries in frames, of at
least one nanosecond, and let `k` be the first behind the deadline; it comes less than a frame
later. Then the boundary of the deadline is `k` frames, cut down to a word. If a word can hold `k`
frames, the boundary is exactly that, and otherwise it is no boundary behind the deadline at all.
Up to such a deadline a later one has no earlier boundary, so that the driver wakes up at the
earliest boundary of its tasks. -/
theorem boundary_first_iff (frame deadline : Nat) :
    ∃ k, IsLeast {k | deadline ≤ k * max frame 1} k ∧
      k * max frame 1 < deadline + max frame 1 ∧
      boundary frame deadline = k * max frame 1 % Word.count ∧
      (boundary frame deadline = k * max frame 1 ↔ k * max frame 1 < Word.count) ∧
      (max frame 1 ∣ boundary frame deadline ∧ deadline ≤ boundary frame deadline ↔
        k * max frame 1 < Word.count) ∧
      (k * max frame 1 < Word.count →
        (∀ d ≤ deadline, boundary frame d ≤ boundary frame deadline) ∧
        ∀ q : FrameQueue, q.frame = frame → (∀ t ∈ q.pending, t.deadline ≤ deadline) →
          ∀ b, q.nextBoundary = some b → ∀ t ∈ q.pending, b ≤ boundary frame t.deadline) := by
  have pos : 0 < max frame 1 := Nat.le_max_right frame 1
  have same : boundary frame deadline = boundary (max frame 1) deadline :=
    (boundary_max_one frame deadline).symm
  have exact_iff : boundary (max frame 1) deadline = firstBoundary (max frame 1) deadline ↔
      firstBoundary (max frame 1) deadline < Word.count := boundary_eq_iff pos
  refine ⟨(deadline + max frame 1 - 1) / max frame 1, isLeast_frames pos, firstBoundary_lt pos,
    ?_, ?_, ?_, ?_⟩
  · rw [same]
    exact boundary_eq_mod pos
  · rw [same]
    exact exact_iff
  · rw [same]
    refine ⟨fun behind => ?_, fun short => ?_⟩
    · by_contra late
      exact not_le_boundary pos (Nat.not_lt.mp late) behind
    · rw [exact_iff.mpr short]
      exact (isLeast_firstBoundary pos).1
  · intro short
    refine ⟨fun d le => ?_, ?_⟩
    · have mono := boundary_mono pos short le
      rwa [boundary_max_one, boundary_max_one] at mono
    · rintro q rfl early b next
      refine FrameQueue.nextBoundary_le (fun t pending => ?_) next
      exact Nat.lt_of_le_of_lt (firstBoundary_mono pos (early t pending)) short

/-- At sixty frames a second, a deadline of 20 ms waits for the second boundary, and no earlier one
waits longer. -/
theorem boundary_first_iff_twentyMillis :
    ∃ k, IsLeast {k | 20000000 ≤ k * 16666666} k ∧ k * 16666666 < Word.count ∧
      boundary (frameOfRate defaultFrameRate) 20000000 = k * 16666666 ∧
      ∀ d ≤ 20000000, boundary (frameOfRate defaultFrameRate) d ≤ k * 16666666 := by
  obtain ⟨k, least, near, -, first, -, ordered⟩ :=
    boundary_first_iff (frameOfRate defaultFrameRate) 20000000
  have length : max (frameOfRate defaultFrameRate) 1 = 16666666 := by decide
  rw [length] at least near first ordered
  have short : k * 16666666 < Word.count := Nat.lt_trans near (by decide)
  rw [first.mpr short] at ordered
  exact ⟨k, least, short, first.mpr short, (ordered short).1⟩

/-- A far deadline whose first boundary a word cannot hold: its boundary comes after 3 ms, before
that of a near deadline, so that both tasks run at the boundary of the near one. -/
theorem boundary_before_deadline :
    let l : Loop Errands := .create (.frames { frame := 16000000 }) {}
    boundary 16000000 18446744073710000000 = 2448384 ∧ boundary 16000000 40000000 = 48000000 ∧
      (((l.send "near" 40 0).1.send "far" 18446744073710 0).1.advance Errands.program
        48).program.notes = [(48, "near"), (48, "far")] := by
  refine ⟨by decide, by decide, by cbv⟩

end Cadence
