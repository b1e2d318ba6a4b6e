import Cadence.Binary.Little
import Cadence.Word

/-!
# Codecs

A codec writes the values of a type as byte strings. A value whose bytes can be counted in a word
of four bytes is read back.

* `Codec`: writing and reading with the law that ties them;
* `packParts`, `unpackParts`: several byte strings as one, behind a head that holds a tag and the
  length of each;
* **`unpackParts_packParts`**: the tag and the byte strings are read back.
-/

namespace Cadence

/-- The number of values of a four-byte word. -/
def frameLimit : Nat := Word.count32

/-- A way to write the values of a type as bytes. -/
structure Codec (α : Type) where
  encode : α → Bytes
  decode : Bytes → Option α
  decode_encode : ∀ a, (encode a).length < frameLimit → decode (encode a) = some a

namespace Packed

/-- The lengths of byte strings, each in eight bytes. -/
def lengths (parts : List Bytes) : Bytes := parts.flatMap fun p => Little.encode 8 p.length

/-- Read `n` words of eight bytes; the rest follows. -/
def readLengths : Nat → Bytes → Option (List Nat × Bytes)
  | 0, bs => some ([], bs)
  | n + 1, bs =>
    if bs.length < 8 then none
    else (readLengths n (bs.drop 8)).map fun r => (Little.value (bs.take 8) :: r.1, r.2)

/-- Cut byte strings of the given lengths off the front, with nothing left over. -/
def cut : List Nat → Bytes → Option (List Bytes)
  | [], [] => some []
  | [], _ :: _ => none
  | n :: ns, bs => if bs.length < n then none else (cut ns (bs.drop n)).map (bs.take n :: ·)

theorem readLengths_lengths (parts : List Bytes) (r : Bytes)
    (h : ∀ p ∈ parts, p.length < frameLimit) :
    readLengths parts.length (lengths parts ++ r) = some (parts.map List.length, r) := by
  induction parts with
  | nil => rfl
  | cons p ps ih =>
    have hp : p.length < Nat.pow 256 8 := Nat.lt_trans (h p List.mem_cons_self) (by decide)
    have hd : lengths (p :: ps) ++ r = Little.encode 8 p.length ++ (lengths ps ++ r) := by
      simp [lengths, List.append_assoc]
    have hl := Little.length_encode 8 p.length
    have hn : ¬ (Little.encode 8 p.length ++ (lengths ps ++ r)).length < 8 := by
      rw [List.length_append, hl]; omega
    rw [List.length_cons, readLengths, hd, if_neg hn, List.drop_left' hl, List.take_left' hl,
      ih fun q hq => h q (List.mem_cons_of_mem _ hq), Little.value_encode hp]
    rfl

theorem cut_flatten (parts : List Bytes) :
    cut (parts.map List.length) parts.flatten = some parts := by
  induction parts with
  | nil => rfl
  | cons p ps ih =>
    have hn : ¬ (p ++ ps.flatten).length < p.length := by rw [List.length_append]; omega
    rw [List.map_cons, List.flatten_cons, cut, if_neg hn, List.drop_left, List.take_left, ih]
    rfl

end Packed

open Packed

/-- A tag in four bytes, the lengths of the byte strings, and the byte strings themselves. -/
def packParts (tag : Nat) (parts : List Bytes) : Bytes :=
  Little.encode 4 tag ++ (lengths parts ++ parts.flatten)

/-- Read a tag and `n` byte strings. -/
def unpackParts (n : Nat) (bs : Bytes) : Option (Nat × List Bytes) :=
  if bs.length < 4 then none
  else do
    let (ns, r) ← readLengths n (bs.drop 4)
    let parts ← cut ns r
    return (Little.value (bs.take 4), parts)

theorem length_le_packParts {tag : Nat} {parts : List Bytes} {p : Bytes} (h : p ∈ parts) :
    p.length ≤ (packParts tag parts).length := by
  have := List.Sublist.length_le (List.sublist_flatten_of_mem h)
  simp only [packParts, List.length_append]
  omega

/-- **The tag and the byte strings are read back.** -/
theorem unpackParts_packParts {tag : Nat} (parts : List Bytes) (ht : tag < frameLimit)
    (h : (packParts tag parts).length < frameLimit) :
    unpackParts parts.length (packParts tag parts) = some (tag, parts) := by
  have hp : ∀ p ∈ parts, p.length < frameLimit := fun p hp =>
    Nat.lt_of_le_of_lt (length_le_packParts hp) h
  have hl := Little.length_encode 4 tag
  have hn : ¬ (packParts tag parts).length < 4 := by
    simp only [packParts, List.length_append, hl]; omega
  rw [unpackParts, if_neg hn]
  simp only [packParts]
  rw [List.drop_left' hl, List.take_left' hl, readLengths_lengths parts _ hp,
    Little.value_encode (show tag < Nat.pow 256 4 from ht)]
  simp [cut_flatten]

end Cadence
