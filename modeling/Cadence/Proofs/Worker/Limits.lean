import Cadence.Proofs.Worker.Streams

/-!
# The longest body that is written, and the longest that is read

The writer counts a body in four bytes and refuses what cannot be counted. The reader refuses more:
every body longer than `maxLength`. A body between the two limits is written and not read, and what
was written behind it is not reached.

* `Frame.tooLarge`: the fault that both ends report for the body of a message;
* `Frame.write_eq_error_iff`, `Frame.read_of_write`: what each end does with a body of any length;
* `Frame.readAll_of_writeAll`: the messages that arrive are those before the first long one;
* **`Frame.read_back_iff`**: which messages are written only if they are read back.
-/

namespace Cadence.Frame

variable {α : Type} {codec : Codec α} {a : α} {frame : Bytes}

/-- The fault of a message whose body is too long. -/
def tooLarge (codec : Codec α) (a : α) : Fault :=
  .channel (.frameTooLarge (codec.encode a).length)

/-! ## One message -/

theorem write_eq_error_iff {fault : Fault} :
    write codec a = .error fault ↔
      frameLimit ≤ (codec.encode a).length ∧ fault = tooLarge codec a := by
  unfold write
  dsimp only
  split
  · next short => exact ⟨nofun, fun long => absurd short (Nat.not_lt.mpr long.1)⟩
  · next long => exact ⟨fun eq => ⟨Nat.not_lt.mp long, (Except.error.inj eq).symm⟩,
      fun eq => congrArg Except.error eq.2.symm⟩

theorem read_framed_of_not_fits (long : ¬ Fits codec a)
    (short : (codec.encode a).length < frameLimit) (rest : Bytes) (broken : Option String) :
    read codec ⟨framed codec a ++ rest, broken⟩ = .error (tooLarge codec a) := by
  have head := Little.length_encode 4 (codec.encode a).length
  have count : Little.value (Little.encode 4 (codec.encode a).length) = (codec.encode a).length :=
    Little.value_encode short
  have word : (framed codec a ++ rest).take 4 = Little.encode 4 (codec.encode a).length := by
    rw [framed, List.append_assoc, List.take_left' head]
  have counted : ¬ (framed codec a ++ rest).length < 4 := by
    rw [List.length_append, length_framed]
    omega
  unfold read
  rw [if_neg counted]
  dsimp only
  rw [word, count, if_pos (Nat.not_le.mp long)]
  rfl

/-- **The first frame of a stream.** Its message is read if the body is not too long. -/
theorem read_of_write (h : write codec a = .ok frame) (rest : Bytes) (broken : Option String) :
    read codec ⟨frame ++ rest, broken⟩ =
      if Fits codec a then .ok (some (a, ⟨rest, broken⟩)) else .error (tooLarge codec a) := by
  split
  · next fits => exact read_write h fits rest broken
  · next long =>
    obtain ⟨short, rfl⟩ := write_eq h
    exact read_framed_of_not_fits long short rest broken

/-! ## Messages in a row -/

theorem exists_of_writeAll_cons {as : List α} {bytes : Bytes}
    (h : writeAll codec (a :: as) = .ok bytes) :
    ∃ frame frames, write codec a = .ok frame ∧ writeAll codec as = .ok frames ∧
      bytes = frame ++ frames := by
  rw [writeAll] at h
  cases written : write codec a with
  | error fault =>
    rw [written] at h
    cases h
  | ok frame =>
    cases following : writeAll codec as with
    | error fault =>
      rw [written, following] at h
      cases h
    | ok frames =>
      rw [written, following] at h
      cases h
      exact ⟨frame, frames, rfl, rfl, rfl⟩

/-- **Reading stops at the first body that is too long.** The messages before it arrive, and none
behind it. -/
theorem readAll_of_writeAll {as : List α} {bytes : Bytes} (h : writeAll codec as = .ok bytes) :
    readAll codec ⟨bytes, none⟩ =
      (as.takeWhile fun a => Fits codec a,
        (as.find? fun a => ¬ Fits codec a).map (tooLarge codec)) := by
  induction as generalizing bytes with
  | nil =>
    cases h
    exact readAll_nil
  | cons a as ih =>
    obtain ⟨frame, frames, written, following, rfl⟩ := exists_of_writeAll_cons h
    have first := read_of_write written frames none
    by_cases fits : Fits codec a
    · rw [if_pos fits] at first
      rw [readAll_of_read first, ih following, List.takeWhile_cons_of_pos (by simpa using fits),
        List.find?_cons_of_neg (by simpa using fits)]
    · rw [if_neg fits] at first
      rw [readAll_of_error first, List.takeWhile_cons_of_neg (by simpa using fits),
        List.find?_cons_of_pos (by simpa using fits)]
      rfl

/-- **Which messages are read back.** The writer refuses the bodies that four bytes do not count,
and writes all others. A body that was written is read back if it is no longer than `maxLength`;
a longer one is refused, whatever the stream holds behind it. So a message is written only if it is
read back, unless its body lies between the two limits; and of messages in a row those that arrive
are the ones before the first such body. -/
theorem read_back_iff (codec : Codec α) :
    (∀ a fault, write codec a = .error fault ↔
      frameLimit ≤ (codec.encode a).length ∧ fault = tooLarge codec a) ∧
    (∀ a frame, write codec a = .ok frame → ∀ rest broken,
      read codec ⟨frame ++ rest, broken⟩ =
        if (codec.encode a).length ≤ maxLength then .ok (some (a, ⟨rest, broken⟩))
        else .error (tooLarge codec a)) ∧
    (∀ a, (∀ frame, write codec a = .ok frame →
        read codec ⟨frame, none⟩ = .ok (some (a, ⟨[], none⟩))) ↔
      (codec.encode a).length ≤ maxLength ∨ frameLimit ≤ (codec.encode a).length) ∧
    (∀ as bytes, writeAll codec as = .ok bytes →
      readAll codec ⟨bytes, none⟩ =
        (as.takeWhile fun a => Fits codec a,
          (as.find? fun a => ¬ Fits codec a).map (tooLarge codec))) := by
  refine ⟨fun a fault => write_eq_error_iff, fun a frame => read_of_write, fun a => ?_,
    fun as bytes => readAll_of_writeAll⟩
  constructor
  · intro law
    rcases Nat.lt_or_ge (codec.encode a).length frameLimit with short | long
    · have first := read_of_write (write_of_lt short) [] none
      rw [List.append_nil, law _ (write_of_lt short)] at first
      split at first
      · next fits => exact .inl fits
      · cases first
    · exact .inr long
  · rintro (fits | long) frame written
    · have := read_write written fits [] none
      rwa [List.append_nil] at this
    · exact absurd (write_eq written).1 (Nat.not_lt.mpr long)

/-! ## Snapshots at the limits -/

theorem length_encode_snapshot (text : Bytes) :
    (Reply.codec.encode (.snapshot text)).length = 12 + text.length := by
  change (packParts 0 [text]).length = _
  simp only [packParts, Packed.lengths, List.flatMap_cons, List.flatMap_nil, List.flatten_cons,
    List.flatten_nil, List.append_nil, List.length_append, Little.length_encode]
  omega

theorem length_encode_replicate (n : Nat) (b : UInt8) :
    (Reply.codec.encode (.snapshot (List.replicate n b))).length = 12 + n := by
  rw [length_encode_snapshot, List.length_replicate]

/-- A snapshot with the longest body that is read, and one whose body is longer by a byte between
two other replies: both are written, and of the three only the first is read. -/
theorem read_back_iff_snapshots :
    (∃ frame, write Reply.codec (.snapshot (List.replicate 104857588 0)) = .ok frame ∧
      read Reply.codec ⟨frame, none⟩ =
        .ok (some (.snapshot (List.replicate 104857588 0), ⟨[], none⟩))) ∧
    ∃ bytes,
      writeAll Reply.codec [.pong, .snapshot (List.replicate 104857589 0), .ack] = .ok bytes ∧
      readAll Reply.codec ⟨bytes, none⟩ =
        ([.pong], some (.channel (.frameTooLarge 104857601))) := by
  obtain ⟨-, -, law, arrive⟩ := read_back_iff Reply.codec
  have size := length_encode_replicate 104857588 0
  have longer := length_encode_replicate 104857589 0
  -- the texts are too long to be looked at: from here on only the sizes of the bodies are known
  generalize Reply.snapshot (List.replicate 104857588 0) = last at size ⊢
  generalize Reply.snapshot (List.replicate 104857589 0) = next at longer ⊢
  constructor
  · have written : write Reply.codec last = .ok (framed Reply.codec last) :=
      write_of_lt (by rw [size]; decide)
    exact ⟨_, written, (law last).mpr (.inl (by rw [size]; decide)) _ written⟩
  · have pong : Fits Reply.codec .pong := by decide
    have long : ¬ Fits Reply.codec next := by
      rw [Fits, longer]
      decide
    have written : writeAll Reply.codec [.pong, next, .ack] =
        .ok (framed Reply.codec .pong ++ (framed Reply.codec next ++
          (framed Reply.codec .ack ++ []))) := by
      rw [writeAll, write_of_fits pong, writeAll, write_of_lt (by rw [longer]; decide)]
      rfl
    refine ⟨_, written, (arrive _ _ written).trans ?_⟩
    rw [List.takeWhile_cons_of_pos (by simpa using pong),
      List.takeWhile_cons_of_neg (by simpa using long),
      List.find?_cons_of_neg (by simpa using pong), List.find?_cons_of_pos (by simpa using long),
      Option.map_some, tooLarge, longer]

/-- A snapshot text of as many bytes as a reader takes for a whole body: the writer does not refuse
it, and the reader does. -/
theorem snapshot_written_not_read :
    (∃ frame, write Reply.codec (.snapshot (List.replicate 104857600 0)) = .ok frame ∧
      ∀ rest, read Reply.codec ⟨frame ++ rest, none⟩ =
        .error (.channel (.frameTooLarge 104857612))) ∧
    ¬ ∀ frame, write Reply.codec (.snapshot (List.replicate 104857600 0)) = .ok frame →
      read Reply.codec ⟨frame, none⟩ =
        .ok (some (.snapshot (List.replicate 104857600 0), ⟨[], none⟩)) := by
  have size := length_encode_replicate 104857600 0
  generalize Reply.snapshot (List.replicate 104857600 0) = reply at size ⊢
  have written : write Reply.codec reply = .ok (framed Reply.codec reply) :=
    write_of_lt (by rw [size]; decide)
  have long : ¬ Fits Reply.codec reply := by
    rw [Fits, size]
    decide
  have refused (rest : Bytes) : read Reply.codec ⟨framed Reply.codec reply ++ rest, none⟩ =
      .error (.channel (.frameTooLarge 104857612)) := by
    rw [read_of_write written, if_neg long, tooLarge, size]
  refine ⟨⟨_, written, refused⟩, fun law => ?_⟩
  have first := refused []
  rw [List.append_nil, law _ written] at first
  cases first

end Cadence.Frame
