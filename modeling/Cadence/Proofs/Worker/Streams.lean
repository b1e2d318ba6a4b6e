import Cadence.Proofs.Worker.Frames

/-!
# Streams of frames

Messages are written one after the other and read back one after the other. A stream may be cut at
any byte: the reader gets the messages whose frames are whole, and the cut is a fault only if it
lies inside a body.

* `Frame.writeAll`: the frames of messages in a row; `Frame.extent`: the bytes that they take;
* `Frame.readAll_frames`: whole frames are read off the front of a stream;
* `Frame.readAll_short`: what becomes of a frame that is cut;
* **`Frame.readAll_take`**: what is read from a stream that is cut.
-/

namespace Cadence.Frame

variable {α : Type} {codec : Codec α}

/-- Write messages one after the other. -/
def writeAll (codec : Codec α) : List α → Except Fault Bytes
  | [] => .ok []
  | a :: as => do
    let frame ← write codec a
    let frames ← writeAll codec as
    return frame ++ frames

/-- A reader takes the body of the message. -/
def Fits (codec : Codec α) (a : α) : Prop := (codec.encode a).length ≤ maxLength

instance (codec : Codec α) (a : α) : Decidable (Fits codec a) :=
  inferInstanceAs (Decidable (_ ≤ _))

/-- The length of a body, and the body. -/
def framed (codec : Codec α) (a : α) : Bytes :=
  Little.encode 4 (codec.encode a).length ++ codec.encode a

/-- The number of bytes that the frames of messages take. -/
def extent (codec : Codec α) : List α → Nat
  | [] => 0
  | a :: as => 4 + (codec.encode a).length + extent codec as

/-! ## Lengths -/

@[simp] theorem length_framed (a : α) : (framed codec a).length = 4 + (codec.encode a).length := by
  rw [framed, List.length_append, Little.length_encode]

theorem extent_cons (a : α) (as : List α) :
    extent codec (a :: as) = (framed codec a).length + extent codec as := by
  rw [length_framed]
  rfl

theorem extent_concat (as : List α) (a : α) :
    extent codec (as ++ [a]) = extent codec as + (framed codec a).length := by
  induction as with
  | nil => rw [List.nil_append, extent_cons, extent, Nat.zero_add, Nat.add_zero]
  | cons b as ih => rw [List.cons_append, extent_cons, extent_cons, ih, Nat.add_assoc]

theorem length_flatMap_framed (as : List α) :
    (as.flatMap (framed codec)).length = extent codec as := by
  induction as with
  | nil => rfl
  | cons a as ih => rw [List.flatMap_cons, List.length_append, ih, extent_cons]

/-! ## Whole frames -/

theorem write_of_lt {a : α} (short : (codec.encode a).length < frameLimit) :
    write codec a = .ok (framed codec a) := by
  unfold write
  exact if_pos short

theorem write_of_fits {a : α} (fits : Fits codec a) : write codec a = .ok (framed codec a) :=
  write_of_lt (Nat.lt_of_le_of_lt fits (by decide))

theorem writeAll_of_fits {as : List α} (fits : ∀ a ∈ as, Fits codec a) :
    writeAll codec as = .ok (as.flatMap (framed codec)) := by
  induction as with
  | nil => rfl
  | cons a as ih =>
    unfold writeAll
    rw [write_of_fits (fits a List.mem_cons_self),
      ih fun b mem => fits b (List.mem_cons_of_mem _ mem)]
    rfl

theorem readAll_of_read {s r : ByteStream} {a : α} (h : read codec s = .ok (some (a, r))) :
    readAll codec s = (a :: (readAll codec r).1, (readAll codec r).2) := by
  rw [readAll]
  split
  · next eq => cases h.symm.trans eq
  · next eq => cases h.symm.trans eq
  · next eq => cases h.symm.trans eq; rfl

theorem readAll_of_error {s : ByteStream} {fault : Fault} (h : read codec s = .error fault) :
    readAll codec s = ([], some fault) := by
  rw [readAll]
  split
  · next eq => cases h.symm.trans eq; rfl
  · next eq => cases h.symm.trans eq
  · next eq => cases h.symm.trans eq

/-- **Whole frames are read off the front of a stream.** -/
theorem readAll_frames {as : List α} (fits : ∀ a ∈ as, Fits codec a) (rest : Bytes)
    (broken : Option String) :
    readAll codec ⟨as.flatMap (framed codec) ++ rest, broken⟩ =
      (as ++ (readAll codec ⟨rest, broken⟩).1, (readAll codec ⟨rest, broken⟩).2) := by
  induction as with
  | nil => rfl
  | cons a as ih =>
    have first : read codec ⟨(a :: as).flatMap (framed codec) ++ rest, broken⟩ =
        .ok (some (a, ⟨as.flatMap (framed codec) ++ rest, broken⟩)) := by
      rw [List.flatMap_cons, List.append_assoc]
      exact read_write (write_of_fits (fits a List.mem_cons_self)) (fits a List.mem_cons_self) _ _
    rw [readAll_of_read first, ih fun b mem => fits b (List.mem_cons_of_mem _ mem)]
    rfl

theorem readAll_nil : readAll codec ⟨[], none⟩ = ([], none) := by
  rw [readAll]
  rfl

theorem readAll_whole {as : List α} (fits : ∀ a ∈ as, Fits codec a) :
    readAll codec ⟨as.flatMap (framed codec), none⟩ = (as, none) := by
  have := readAll_frames fits [] none
  rwa [readAll_nil, List.append_nil, List.append_nil] at this

/-! ## A frame that is cut -/

theorem read_of_length_lt {bs : Bytes} (short : bs.length < 4) :
    read codec ⟨bs, none⟩ = .ok none := by
  unfold read
  exact if_pos short

theorem read_take_framed {a : α} (fits : Fits codec a) {cut : Nat} (head : 4 ≤ cut)
    (short : cut < (framed codec a).length) (broken : Option String) :
    read codec ⟨(framed codec a).take cut, broken⟩ =
      .error (.channel (.readBody (broken.getD "failed to fill whole buffer"))) := by
  have limit : (codec.encode a).length < frameLimit := Nat.lt_of_le_of_lt fits (by decide)
  have size : ((framed codec a).take cut).length = cut := by
    rw [List.length_take]
    omega
  have word : ((framed codec a).take cut).take 4 = Little.encode 4 (codec.encode a).length := by
    rw [List.take_take, Nat.min_eq_left head, framed,
      List.take_left' (Little.length_encode 4 _)]
  have count : Little.value (Little.encode 4 (codec.encode a).length) = (codec.encode a).length :=
    Little.value_encode limit
  rw [length_framed] at short
  unfold read
  rw [if_neg (by dsimp only; omega)]
  dsimp only
  rw [word, count, if_neg (Nat.not_lt.mpr fits), if_pos (by rw [List.length_drop, size]; omega)]
  rfl

/-- **A frame that is cut.** Nothing is read, and it is a fault if the length has come. -/
theorem readAll_short {a : α} (fits : Fits codec a) {cut : Nat}
    (short : cut < (framed codec a).length) :
    readAll codec ⟨(framed codec a).take cut, none⟩ =
      ([], if cut < 4 then none
        else some (.channel (.readBody "failed to fill whole buffer"))) := by
  by_cases head : cut < 4
  · have ended : read codec ⟨(framed codec a).take cut, none⟩ = .ok none :=
      read_of_length_lt (by rw [List.length_take]; omega)
    rw [if_pos head, readAll]
    split
    · next eq => cases ended.symm.trans eq
    · rfl
    · next eq => cases ended.symm.trans eq
  · have failed := read_take_framed fits (Nat.not_lt.mp head) short none
    rw [if_neg head, readAll_of_error failed]
    rfl

/-! ## A stream that is cut -/

theorem exists_split (codec : Codec α) (as : List α) (cut : Nat) :
    ∃ whole rest, as = whole ++ rest ∧ extent codec whole ≤ cut ∧
      ∀ a ∈ rest.head?, cut < extent codec whole + (framed codec a).length := by
  induction as generalizing cut with
  | nil => exact ⟨[], [], rfl, Nat.zero_le _, nofun⟩
  | cons a as ih =>
    by_cases fits : (framed codec a).length ≤ cut
    · obtain ⟨whole, rest, rfl, before, behind⟩ := ih (cut - (framed codec a).length)
      refine ⟨a :: whole, rest, rfl, ?_, fun b mem => ?_⟩
      · rw [extent_cons]
        omega
      · have := behind b mem
        rw [extent_cons]
        omega
    · refine ⟨[], a :: as, rfl, Nat.zero_le _, fun b mem => ?_⟩
      cases mem
      rw [extent]
      omega

/-- **Reading a stream that is cut.** Messages whose bodies are not too long are written one after
the other, and the bytes are cut anywhere. Reading gives the messages whose frames lie before the
cut, and no others. Then it ends cleanly if fewer bytes are left than a length takes, and with a
body that is cut short otherwise. Without a cut all messages are read, and the end is clean. -/
theorem readAll_take (codec : Codec α) (as : List α) (fits : ∀ a ∈ as, Fits codec a) (cut : Nat) :
    ∃ bytes, writeAll codec as = .ok bytes ∧ bytes.length = extent codec as ∧
      (∃ whole rest, as = whole ++ rest ∧ extent codec whole ≤ cut ∧
        (∀ a ∈ rest.head?, cut < extent codec (whole ++ [a])) ∧
        readAll codec ⟨bytes.take cut, none⟩ =
          (whole, if (bytes.take cut).length - extent codec whole < 4 then none
            else some (.channel (.readBody "failed to fill whole buffer")))) ∧
      readAll codec ⟨bytes, none⟩ = (as, none) := by
  refine ⟨_, writeAll_of_fits fits, length_flatMap_framed as, ?_, readAll_whole fits⟩
  obtain ⟨whole, rest, rfl, before, behind⟩ := exists_split codec as cut
  have wholeFits : ∀ a ∈ whole, Fits codec a := fun a mem => fits a (List.mem_append_left _ mem)
  have size : (whole.flatMap (framed codec)).length = extent codec whole :=
    length_flatMap_framed whole
  refine ⟨whole, rest, rfl, before, fun a mem => ?_, ?_⟩
  · rw [extent_concat]
    exact behind a mem
  · have parted : ((whole ++ rest).flatMap (framed codec)).take cut =
        whole.flatMap (framed codec) ++
          (rest.flatMap (framed codec)).take (cut - extent codec whole) := by
      rw [List.flatMap_append, List.take_append, size, List.take_of_length_le (by omega)]
    rw [parted, readAll_frames wholeFits, List.length_append, size, Nat.add_sub_cancel_left]
    cases rest with
    | nil =>
      rw [List.flatMap_nil, List.take_nil, readAll_nil, List.append_nil]
      rfl
    | cons a rest =>
      -- what is left of the stream is the beginning of the first frame that is not whole
      have short : cut - extent codec whole < (framed codec a).length := by
        have := behind a rfl
        omega
      rw [List.flatMap_cons, List.take_append_of_le_length (Nat.le_of_lt short),
        readAll_short (fits a (List.mem_append_right _ List.mem_cons_self)) short, List.append_nil,
        List.length_take, Nat.min_eq_left (Nat.le_of_lt short)]

/-- A ping and a step, cut inside the second body: the ping is read, and then the body ends. -/
theorem readAll_take_ping_step :
    (∀ c ∈ [Command.ping, .step], Fits Command.codec c) ∧
    ∃ bytes, writeAll Command.codec [.ping, .step] = .ok bytes ∧ bytes.length = 80 ∧
      readAll Command.codec ⟨bytes.take 45, none⟩ =
        ([.ping], some (.channel (.readBody "failed to fill whole buffer"))) ∧
      readAll Command.codec ⟨bytes, none⟩ = ([.ping, .step], none) := by
  have fits : ∀ c ∈ [Command.ping, .step], Fits Command.codec c := by decide +kernel
  obtain ⟨bytes, written, size, ⟨whole, rest, parted, before, behind, cut⟩, all⟩ :=
    readAll_take Command.codec [.ping, .step] fits 45
  have eighty : bytes.length = 80 := size.trans (by decide +kernel)
  have pinged : whole = [.ping] := by
    rcases List.append_eq_cons_iff.mp parted.symm with ⟨rfl, rfl⟩ | ⟨tail, rfl, steps⟩
    · exact absurd (behind .ping rfl) (by decide +kernel)
    · rcases List.append_eq_singleton_iff.mp steps.symm with ⟨rfl, -⟩ | ⟨rfl, -⟩
      · rfl
      · exact absurd before (by decide +kernel)
  have forty : extent Command.codec [.ping] = 40 := by decide +kernel
  subst pinged
  refine ⟨fits, bytes, written, eighty, ?_, all⟩
  rw [cut, forty, List.length_take, eighty]
  rfl

end Cadence.Frame
