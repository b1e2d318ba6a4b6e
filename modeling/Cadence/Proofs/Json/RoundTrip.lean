import Cadence.Proofs.Json.Shape
import Cadence.Proofs.Json.Tokens

/-!
# Values are read back from their text

The reader of documents is run on what the printer wrote. Whether a double is read back depends on
the digits of its text, so this is asked of every double in a value.

* `Double.Legible`, `Json.Legible`: a double that is read back, and a value with such doubles only;
* `Json.Printable`: the integers are words as well;
* **`Document.read?_toText`**: a printable value is read back.
-/

namespace Cadence

/-- A double whose text is a numeral that stands for it. -/
structure Double.Legible (x : Double) : Prop where
  finite : x.isFinite = true
  reads : Document.Reads (Utf8.encode x.toText) (.float x)

namespace Json

/-- A double is legible. -/
def Exact : Json → Prop
  | .float x => x.Legible
  | _ => True

/-- All doubles in a value are legible. -/
def Legible (v : Json) : Prop := v.Every Exact

/-- All integers in a value are words, and all doubles legible. -/
def Printable (v : Json) : Prop := v.Every fun u => u.InWord ∧ u.Exact

theorem printable_of_legible {v : Json} (words : v.Every InWord) (legible : v.Legible) :
    v.Printable :=
  words.imp₂ legible fun _ => And.intro

end Json

namespace Document

theorem expect_append (w : String) (rest : Bytes) :
    expect w (Utf8.encode w ++ rest) = some rest := by
  have begins : (Utf8.encode w).isPrefixOf (Utf8.encode w ++ rest) = true := by simp
  simp [expect, begins]

theorem skipGap_cons {b : UInt8} (solid : isGap b = false) (r : Bytes) :
    skipGap (b :: r) = b :: r := by
  simp [skipGap, solid]

/-- A byte that a number starts with. -/
def StartsNumber (b : UInt8) : Prop := b = code '-' ∨ (digit? b).isSome = true

theorem exists_of_reads {bs : Bytes} {v : Json} (reads : Reads bs v) :
    ∃ b r, bs = b :: r ∧ StartsNumber b := by
  obtain ⟨t, read, -⟩ := reads
  cases bs with
  | nil => cases read
  | cons b r =>
    refine ⟨b, r, rfl, ?_⟩
    by_cases minus : b = code '-'
    · exact .inl minus
    · by_cases digit : (digit? b).isSome = true
      · exact .inr digit
      · simp [readNumeral, readSign, minus, spanDigits, digit] at read

/-- A number is told from everything else by its first byte. -/
theorem StartsNumber.ne {b : UInt8} (h : StartsNumber b) {c : Char}
    (other : c ≠ '-') (noDigit : c.isDigit = false) (ascii : c.toNat < 128) : b ≠ code c := by
  have value : (code c).toNat = c.toNat := Utf8.toNat_ofNat (by omega)
  rintro rfl
  rcases h with minus | digit
  · have same : c.toNat = '-'.toNat := by rw [← value, minus]; rfl
    exact other (Char.toNat_inj.mp same)
  · by_cases inside : 48 ≤ c.toNat ∧ c.toNat ≤ 57
    · rw [isDigit_iff.mpr inside] at noDigit
      cases noDigit
    · rw [digit?, value, if_neg inside] at digit
      cases digit

theorem StartsNumber.solid {b : UInt8} (h : StartsNumber b) : isGap b = false := by
  have space : b ≠ code ' ' := h.ne (by decide) rfl (by decide)
  have line : b ≠ code '\n' := h.ne (by decide) rfl (by decide)
  have ret : b ≠ code '\r' := h.ne (by decide) rfl (by decide)
  have tab : b ≠ code '\t' := h.ne (by decide) rfl (by decide)
  simpa [isGap, code] using ⟨⟨⟨space, line⟩, ret⟩, tab⟩

theorem readDocument_number {bs : Bytes} {v : Json} (reads : Reads bs v) {rest : Bytes}
    (stops : Stops rest) (fuel : Nat) :
    readDocument (fuel + 1) (bs ++ rest) = some (.number (some v), rest) := by
  obtain ⟨b, r, rfl, starts⟩ := exists_of_reads reads
  obtain ⟨t, read, value⟩ := reads
  have quote : b ≠ code '"' := starts.ne (by decide) rfl (by decide)
  have bracket : b ≠ code '[' := starts.ne (by decide) rfl (by decide)
  have brace : b ≠ code '\x7b' := starts.ne (by decide) rfl (by decide)
  have n : b ≠ code 'n' := starts.ne (by decide) rfl (by decide)
  have t' : b ≠ code 't' := starts.ne (by decide) rfl (by decide)
  have f : b ≠ code 'f' := starts.ne (by decide) rfl (by decide)
  have goesOn := readNumeral_append stops read
  rw [List.cons_append] at goesOn ⊢
  rw [readDocument, skipGap_cons starts.solid]
  simp [quote, bracket, brace, n, t', f, goesOn, value]

theorem stops_cons {c : Char} (sep : c = ',' ∨ c = ']' ∨ c = '\x7d') (r : Bytes) :
    Stops (code c :: r) := by
  intro b mem
  obtain rfl : code c = b := by simpa using mem
  rcases sep with rfl | rfl | rfl
  · decide
  · decide
  · decide

theorem exists_of_toChars {v : Json} (printable : v.Printable) :
    ∃ b r, Utf8.encodeChars v.toChars = b :: r ∧ isGap b = false ∧ b ≠ code ']' := by
  have number {bs : Bytes} {v : Json} (reads : Reads bs v) :
      ∃ b r, bs = b :: r ∧ isGap b = false ∧ b ≠ code ']' := by
    obtain ⟨b, r, eq, starts⟩ := exists_of_reads reads
    exact ⟨b, r, eq, starts.solid, starts.ne (by decide) rfl (by decide)⟩
  cases v with
  | null => exact ⟨_, _, rfl, by decide, by decide⟩
  | bool b => cases b <;> exact ⟨_, _, rfl, by decide, by decide⟩
  | int n => exact number (reads_int printable.1.1 printable.1.2)
  | float x =>
    have legible : x.Legible := printable.2
    rw [Json.toChars, if_pos legible.finite]
    exact number legible.reads
  | str s | arr items | obj fields =>
    exact ⟨_, _, encodeChars_cons (by decide) _, by decide, by decide⟩

theorem stringChars_append (s : String) (rest : Bytes) :
    Utf8.encodeChars (Json.stringChars s) ++ rest =
      code '"' :: (Utf8.encodeChars (s.toList.flatMap Json.escapeChar) ++ code '"' :: rest) := by
  have last : Utf8.encodeChars ['"'] = [code '"'] := by decide
  rw [Json.stringChars, List.cons_append, encodeChars_cons (by decide), encodeChars_append, last]
  simp

theorem bracketed {o c : Char} (openAscii : o.toNat < 128) (closeAscii : c.toNat < 128)
    (cs : List Char) (rest : Bytes) : Utf8.encodeChars (o :: cs ++ [c]) ++ rest =
      code o :: (Utf8.encodeChars cs ++ code c :: rest) := by
  rw [List.cons_append, encodeChars_cons openAscii, encodeChars_append, encodeChars_cons closeAscii]
  simp [Utf8.encodeChars]

theorem readDocument_quote (fuel : Nat) (r : Bytes) :
    readDocument (fuel + 1) (code '"' :: r) = (readString r).map fun (s, r) => (.str s, r) := rfl

theorem readDocument_bracket (fuel : Nat) {c : UInt8} (r : Bytes) (solid : isGap c = false) :
    readDocument (fuel + 1) (code '[' :: c :: r) =
      if c = code ']' then some (.arr [], r) else readItems fuel [] (c :: r) := by
  have bracket : isGap (code '[') = false := by decide
  rw [readDocument, skipGap_cons bracket]
  dsimp only
  rw [if_neg (by decide), if_pos rfl, skipGap_cons solid]

theorem readDocument_brace (fuel : Nat) {c : UInt8} (r : Bytes) (solid : isGap c = false) :
    readDocument (fuel + 1) (code '\x7b' :: c :: r) =
      if c = code '\x7d' then some (.obj [], r) else readMembers fuel [] (c :: r) := by
  have brace : isGap (code '\x7b') = false := by decide
  rw [readDocument, skipGap_cons brace]
  dsimp only
  rw [if_neg (by decide), if_neg (by decide), if_pos rfl, skipGap_cons solid]

theorem length_bracketed {o c : Char} (openAscii : o.toNat < 128) (closeAscii : c.toNat < 128)
    (cs : List Char) : (Utf8.encodeChars (o :: cs ++ [c])).length =
      (Utf8.encodeChars cs).length + 2 := by
  have text := congrArg List.length (bracketed openAscii closeAscii cs [])
  simpa using text

theorem exists_of_itemsChars {v : Json} (vs : List Json) (printable : v.Printable) :
    ∃ b r, Utf8.encodeChars (Json.itemsChars (v :: vs)) = b :: r ∧ isGap b = false ∧
      b ≠ code ']' := by
  obtain ⟨b, r, eq, rest⟩ := exists_of_toChars printable
  rw [Json.itemsChars, encodeChars_append, eq]
  exact ⟨b, _, rfl, rest⟩

theorem exists_of_fieldsChars (k : String) (v : Json) (fs : List (String × Json)) :
    ∃ r, Utf8.encodeChars (Json.fieldsChars ((k, v) :: fs)) = code '"' :: r := by
  rw [Json.fieldsChars, List.append_assoc, encodeChars_append, stringChars_append]
  exact ⟨_, rfl⟩

theorem readMembers_entry (k : String) {fuel : Nat} (acc : List (Option String × Document))
    {r r' : Bytes} {d : Document} {b : UInt8} (solid : isGap b = false)
    (read : readDocument fuel r = some (d, b :: r')) :
    readMembers (fuel + 1) acc (Utf8.encodeChars (Json.stringChars k) ++ code ':' :: r) =
      if b = code '\x7d' then some (.obj ((some k, d) :: acc).reverse, r')
      else if b = code ',' then readMembers fuel ((some k, d) :: acc) r'
      else none := by
  have quote : isGap (code '"') = false := by decide
  have colon : isGap (code ':') = false := by decide
  rw [stringChars_append, readMembers, skipGap_cons quote]
  dsimp only
  rw [if_neg (fun other => other rfl), readString_stringChars]
  dsimp only
  rw [skipGap_cons colon]
  dsimp only
  rw [if_neg (fun other => other rfl), read]
  dsimp only
  rw [skipGap_cons solid]

mutual

theorem readDocument_toChars : (v : Json) → v.Printable → ∀ rest, Stops rest →
    ∀ fuel, 2 * (Utf8.encodeChars v.toChars).length ≤ fuel →
      readDocument fuel (Utf8.encodeChars v.toChars ++ rest) = some (ofJson v, rest)
  | v, printable, rest, stops, 0, enough => by
    obtain ⟨b, r, eq, -⟩ := exists_of_toChars printable
    rw [eq, List.length_cons] at enough
    omega
  | .null, _, rest, _, fuel + 1, _ => by
    have read : readDocument (fuel + 1) (Utf8.encodeChars Json.null.toChars ++ rest) =
        (expect "ull" (Utf8.encode "ull" ++ rest)).map (.null, ·) := rfl
    rw [read, expect_append]
    rfl
  | .bool true, _, rest, _, fuel + 1, _ => by
    have read : readDocument (fuel + 1) (Utf8.encodeChars (Json.bool true).toChars ++ rest) =
        (expect "rue" (Utf8.encode "rue" ++ rest)).map (.bool true, ·) := rfl
    rw [read, expect_append]
    rfl
  | .bool false, _, rest, _, fuel + 1, _ => by
    have read : readDocument (fuel + 1) (Utf8.encodeChars (Json.bool false).toChars ++ rest) =
        (expect "alse" (Utf8.encode "alse" ++ rest)).map (.bool false, ·) := rfl
    rw [read, expect_append]
    rfl
  | .int n, printable, rest, stops, fuel + 1, _ =>
    readDocument_number (reads_int printable.1.1 printable.1.2) stops fuel
  | .float x, printable, rest, stops, fuel + 1, _ => by
    have legible : x.Legible := printable.2
    rw [Json.toChars, if_pos legible.finite]
    exact readDocument_number legible.reads stops fuel
  | .str s, _, rest, _, fuel + 1, _ => by
    rw [Json.toChars, stringChars_append, readDocument_quote, readString_stringChars]
    rfl
  | .arr [], _, rest, _, fuel + 1, _ => readDocument_bracket fuel rest (by decide)
  | .arr (v :: vs), printable, rest, stops, fuel + 1, enough => by
    rw [Json.toChars, length_bracketed (by decide) (by decide)] at enough
    have items := readItems_itemsChars (v :: vs) (by simp) printable.2 [] rest fuel (by omega)
    obtain ⟨b, r, begins, solid, other⟩ := exists_of_itemsChars vs printable.2.1
    rw [Json.toChars, bracketed (by decide) (by decide)]
    rw [begins, List.cons_append] at items ⊢
    rw [readDocument_bracket fuel _ solid, if_neg other, items]
    rfl
  | .obj [], _, rest, _, fuel + 1, _ => readDocument_brace fuel rest (by decide)
  | .obj ((k, v) :: fs), printable, rest, stops, fuel + 1, enough => by
    rw [Json.toChars, length_bracketed (by decide) (by decide)] at enough
    have members := readMembers_fieldsChars ((k, v) :: fs) (by simp) printable.2 [] rest fuel
      (by omega)
    obtain ⟨r, begins⟩ := exists_of_fieldsChars k v fs
    rw [Json.toChars, bracketed (by decide) (by decide)]
    rw [begins, List.cons_append] at members ⊢
    rw [readDocument_brace fuel _ (by decide), if_neg (by decide), members]
    rfl

theorem readItems_itemsChars : (vs : List Json) → vs ≠ [] →
    Json.EveryItems (fun u => u.InWord ∧ u.Exact) vs →
    ∀ acc rest fuel,
    2 * (Utf8.encodeChars (Json.itemsChars vs)).length < fuel →
      readItems fuel acc (Utf8.encodeChars (Json.itemsChars vs) ++ code ']' :: rest) =
        some (.arr (acc.reverse ++ ofItems vs), rest)
  | [], ne, _, _, _, _, _ => absurd rfl ne
  | [v], _, printable, acc, rest, fuel + 1, enough => by
    have gap : isGap (code ']') = false := by decide
    have text : Json.itemsChars [v] = v.toChars := by simp [Json.itemsChars]
    rw [text] at enough ⊢
    have read := readDocument_toChars v printable.1 _ (stops_cons (.inr (.inl rfl)) rest) fuel
      (by omega)
    simp [readItems, read, skipGap_cons gap, ofItems]
  | v :: w :: ws, _, printable, acc, rest, fuel + 1, enough => by
    have gap : isGap (code ',') = false := by decide
    have other : code ',' ≠ code ']' := by decide
    have text : Utf8.encodeChars (Json.itemsChars (v :: w :: ws)) = Utf8.encodeChars v.toChars ++
        code ',' :: Utf8.encodeChars (Json.itemsChars (w :: ws)) := by
      rw [Json.itemsChars, encodeChars_append, if_neg (by simp), encodeChars_cons (by decide)]
    rw [text] at enough ⊢
    simp only [List.length_append, List.length_cons] at enough
    rw [List.append_assoc, List.cons_append]
    have read := readDocument_toChars v printable.1 _ (stops_cons (.inl rfl)
      (Utf8.encodeChars (Json.itemsChars (w :: ws)) ++ code ']' :: rest)) fuel (by omega)
    have others := readItems_itemsChars (w :: ws) (by simp) printable.2 (ofJson v :: acc) rest fuel
      (by omega)
    simp [readItems, read, skipGap_cons gap, other, others, ofItems]

theorem readMembers_fieldsChars : (fs : List (String × Json)) → fs ≠ [] →
    Json.EveryFields (fun u => u.InWord ∧ u.Exact) fs →
    ∀ acc rest fuel,
    2 * (Utf8.encodeChars (Json.fieldsChars fs)).length < fuel →
      readMembers fuel acc (Utf8.encodeChars (Json.fieldsChars fs) ++ code '\x7d' :: rest) =
        some (.obj (acc.reverse ++ ofFields fs), rest)
  | [], ne, _, _, _, _, _ => absurd rfl ne
  | [(k, v)], _, printable, acc, rest, fuel + 1, enough => by
    have gap : isGap (code '\x7d') = false := by decide
    have text : Utf8.encodeChars (Json.fieldsChars [(k, v)]) =
        Utf8.encodeChars (Json.stringChars k) ++ code ':' :: Utf8.encodeChars v.toChars := by
      simp [Json.fieldsChars, encodeChars_append, encodeChars_cons]
    rw [text] at enough ⊢
    simp only [List.length_append, List.length_cons] at enough
    have read := readDocument_toChars v printable.1 _ (stops_cons (.inr (.inr rfl)) rest) fuel
      (by omega)
    rw [List.append_assoc, List.cons_append, readMembers_entry k acc gap read, if_pos rfl]
    simp [ofFields]
  | (k, v) :: f :: fs, _, printable, acc, rest, fuel + 1, enough => by
    have gap : isGap (code ',') = false := by decide
    have other : code ',' ≠ code '\x7d' := by decide
    have text : Utf8.encodeChars (Json.fieldsChars ((k, v) :: f :: fs)) =
        Utf8.encodeChars (Json.stringChars k) ++ code ':' :: (Utf8.encodeChars v.toChars ++
          code ',' :: Utf8.encodeChars (Json.fieldsChars (f :: fs))) := by
      rw [Json.fieldsChars, if_neg (by simp)]
      simp [encodeChars_append, encodeChars_cons]
    rw [text] at enough ⊢
    simp only [List.length_append, List.length_cons] at enough
    have read := readDocument_toChars v printable.1 _ (stops_cons (.inl rfl)
      (Utf8.encodeChars (Json.fieldsChars (f :: fs)) ++ code '\x7d' :: rest)) fuel (by omega)
    have others := readMembers_fieldsChars (f :: fs) (by simp) printable.2
      ((some k, ofJson v) :: acc) rest fuel (by omega)
    simp only [List.append_assoc, List.cons_append]
    rw [readMembers_entry k acc gap read, if_neg other, if_pos rfl, others]
    simp [ofFields]

end

/-- **A value is read back from its text** if its integers are words and its doubles legible. -/
theorem read?_toText {v : Json} (printable : v.Printable) :
    read? (Utf8.encode v.toText) = some (ofJson v) := by
  have text : Utf8.encode v.toText = Utf8.encodeChars v.toChars := by
    simp [Utf8.encode, Json.toText]
  have stops : Stops [] := by
    intro b mem
    cases mem
  have read := readDocument_toChars v printable [] stops
    (2 * (Utf8.encodeChars v.toChars).length + 1) (by omega)
  rw [List.append_nil] at read
  unfold read?
  rw [text, read]
  rfl

end Document

end Cadence
