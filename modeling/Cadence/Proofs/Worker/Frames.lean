import Cadence.Worker.Basic

/-!
# Frames that are read back

A reader takes the frame of a message off the front of a stream, if the body is not too long for
it. A worker answers the frame of a command by the frame of its reply.

* **`Frame.read_write`**: the message of a frame is read back, and what follows is left;
* `Frame.Carried`: a message that travels in a frame of its own;
* `Worker.serve_read`, `Worker.serve_alone`: one turn of the service, and one frame alone.
-/

namespace Cadence

namespace Frame

variable {α : Type} {codec : Codec α} {a : α} {frame : Bytes}

theorem write_eq (h : write codec a = .ok frame) :
    (codec.encode a).length < frameLimit ∧
      frame = Little.encode 4 (codec.encode a).length ++ codec.encode a := by
  unfold write at h
  dsimp only at h
  split at h
  · next short => exact ⟨short, (Except.ok.inj h).symm⟩
  · cases h

theorem readBody_encode (short : (codec.encode a).length < frameLimit) :
    readBody codec (codec.encode a) = .ok a := by
  unfold readBody
  rw [codec.decode_encode a short]

/-- **A message is read back from its frame**, unless its body is longer than a reader takes. -/
theorem read_write (h : write codec a = .ok frame) (fits : (codec.encode a).length ≤ maxLength)
    (rest : Bytes) (broken : Option String) :
    read codec ⟨frame ++ rest, broken⟩ = .ok (some (a, ⟨rest, broken⟩)) := by
  obtain ⟨short, rfl⟩ := write_eq h
  have head := Little.length_encode 4 (codec.encode a).length
  have count : Little.value (Little.encode 4 (codec.encode a).length) = (codec.encode a).length :=
    Little.value_encode short
  have long : ¬ (Little.encode 4 (codec.encode a).length ++ codec.encode a ++ rest).length < 4 := by
    rw [List.length_append, List.length_append, head]
    omega
  unfold read
  rw [if_neg long]
  dsimp only
  rw [List.append_assoc, List.take_left' head, List.drop_left' head, count,
    if_neg (Nat.not_lt.mpr fits), if_neg (by rw [List.length_append]; omega), List.take_left,
    readBody_encode short, List.drop_left]
  rfl

/-- The message has a frame, and it is read back from it. -/
def Carried (codec : Codec α) (a : α) : Prop :=
  ∃ frame, write codec a = .ok frame ∧ read codec ⟨frame, none⟩ = .ok (some (a, ⟨[], none⟩))

theorem rest_of_read {s r : ByteStream} (h : read codec s = .ok (some (a, r))) :
    rest s = r.bytes := by
  unfold read at h
  unfold rest
  split at h
  · split at h <;> cases h
  · next whole =>
    rw [if_neg whole]
    dsimp only at h ⊢
    split at h
    · cases h
    · next fits =>
      rw [if_neg fits]
      split at h
      · cases h
      · cases body : readBody codec
          ((s.bytes.drop 4).take (Little.value (s.bytes.take 4))) with
        | error f =>
          rw [body] at h
          cases h
        | ok b =>
          rw [body] at h
          cases h
          rfl

theorem carried_of_length_le (fits : (codec.encode a).length ≤ maxLength) : Carried codec a := by
  have short : (codec.encode a).length < frameLimit := Nat.lt_of_le_of_lt fits (by decide)
  have written : write codec a =
      .ok (Little.encode 4 (codec.encode a).length ++ codec.encode a) := by
    unfold write
    exact if_pos short
  refine ⟨_, written, ?_⟩
  have := read_write written fits [] none
  rwa [List.append_nil] at this

end Frame

namespace Worker

variable {wire : Wire} {source : ModuleCache.Source}

theorem serve_read {w : Worker} {s r : ByteStream} {c : Command} {frame : Bytes}
    (received : Frame.read wire.commands s = .ok (some (c, r)))
    (written : Frame.write wire.replies (w.handle source c).2 = .ok frame) (more : c ≠ .shutdown) :
    w.serve wire source s =
      { (w.handle source c).1.serve wire source r with
        written := frame ++ ((w.handle source c).1.serve wire source r).written } := by
  rw [serve]
  split
  · next eq => cases received.symm.trans eq
  · next eq => cases received.symm.trans eq
  · next c' r' eq =>
    cases received.symm.trans eq
    dsimp only
    rw [written]
    dsimp only
    rw [if_neg more]

theorem serve_nil (w : Worker) : w.serve wire source ⟨[], none⟩ = { worker := w } := by
  rw [serve]
  rfl

theorem serve_alone {w : Worker} {c : Command} {frame answer : Bytes}
    (received : Frame.read wire.commands ⟨frame, none⟩ = .ok (some (c, ⟨[], none⟩)))
    (written : Frame.write wire.replies (w.handle source c).2 = .ok answer) (more : c ≠ .shutdown) :
    w.serve wire source ⟨frame, none⟩ = { worker := (w.handle source c).1, written := answer } := by
  rw [serve_read received written more, serve_nil]
  dsimp only
  rw [List.append_nil]

end Worker

end Cadence
