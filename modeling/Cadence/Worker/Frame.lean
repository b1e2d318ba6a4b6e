import Cadence.Binary.Codec
import Cadence.Fault

/-!
# Frames

A message travels as a frame: the length of its body in four bytes, lowest byte first, and the body.

* `Frame.write`: the frame of a message; `Frame.writeWithin`, to a writer that takes only so much;
* `ByteStream`: bytes to read, and why reading fails behind them, if not because they end;
* `Frame.read`: the next message of a stream; `Frame.rest`, what is left behind it;
* `Frame.readAll`: all messages up to the end of a stream or the first fault.
-/

namespace Cadence

/-- Bytes that can be read. Behind them the stream ends, or fails for a reason. -/
structure ByteStream where
  bytes : Bytes
  broken : Option String := none

namespace Frame

/-- The longest body that is read. -/
def maxLength : Nat := 104857600

variable {α : Type}

/-- The frame of a message. -/
def write (codec : Codec α) (a : α) : Except Fault Bytes :=
  let body := codec.encode a
  if body.length < frameLimit then .ok (Little.encode 4 body.length ++ body)
  else .error (.channel (.frameTooLarge body.length))

/-- Write a message to a writer that takes `room` bytes and then fails. -/
def writeWithin (codec : Codec α) (room : Nat) (reason : String) (a : α) : Except Fault Bytes := do
  let frame ← write codec a
  if room < frame.length then .error (.channel (.write reason)) else .ok frame

/-- Why a body is cut short. -/
def shortBody (s : ByteStream) : Fault :=
  .channel (.readBody (s.broken.getD "failed to fill whole buffer"))

/-- The message in a body. -/
def readBody (codec : Codec α) (body : Bytes) : Except Fault α :=
  match codec.decode body with
  | some a => .ok a
  | none => .error (.serialization "Failed to decode frame: malformed body")

/-- The next message and what follows it; none at a clean end, where fewer bytes are left than a
length takes. -/
def read (codec : Codec α) (s : ByteStream) : Except Fault (Option (α × ByteStream)) :=
  if s.bytes.length < 4 then
    match s.broken with
    | none => .ok none
    | some reason => .error (.channel (.readLength reason))
  else
    let n := Little.value (s.bytes.take 4)
    let rest := s.bytes.drop 4
    if maxLength < n then .error (.channel (.frameTooLarge n))
    else if rest.length < n then .error (shortBody s)
    else (readBody codec (rest.take n)).map fun a => some (a, { s with bytes := rest.drop n })

/-- What is left to read behind an attempt. A body that is too long is not read, and one that is cut
short is read up to the end. -/
def rest (s : ByteStream) : Bytes :=
  if s.bytes.length < 4 then []
  else
    let n := Little.value (s.bytes.take 4)
    let rest := s.bytes.drop 4
    if maxLength < n then rest else rest.drop n

theorem length_lt_of_read {codec : Codec α} {s r : ByteStream} {a : α}
    (h : read codec s = .ok (some (a, r))) : r.bytes.length < s.bytes.length := by
  unfold read at h
  split at h
  · split at h <;> simp at h
  · dsimp only at h
    split at h
    · simp at h
    split at h
    · simp at h
    cases hb : readBody codec ((s.bytes.drop 4).take (Little.value (s.bytes.take 4))) with
    | error e => simp [hb, Except.map] at h
    | ok b =>
      simp only [hb, Except.map, Except.ok.injEq, Option.some.injEq, Prod.mk.injEq] at h
      obtain ⟨_, rfl⟩ := h
      simp only [List.length_drop]
      omega

/-- Messages up to the end of a stream, and the fault that ended it if it did not end cleanly. -/
def readAll (codec : Codec α) (s : ByteStream) : List α × Option Fault :=
  match h : read codec s with
  | .error f => ([], some f)
  | .ok none => ([], none)
  | .ok (some (a, r)) =>
    have := length_lt_of_read h
    let rest := readAll codec r
    (a :: rest.1, rest.2)
termination_by s.bytes.length

end Frame

end Cadence
