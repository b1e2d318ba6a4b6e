import Cadence.Json.Document
import Cadence.Json.Printer

/-!
# Numbers and strings are read back

The reader of documents is run on the tokens that the printer wrote. Strings and integers are read
back as they are; whether a double is depends on the digits of its text.

* `Document.Stops`: bytes that cannot go on with a number;
* `Document.readNumeral_append`: what stands behind a number does not matter to it;
* `Document.Reads`, `Document.reads_int`: texts of numbers, integers among them;
* **`Document.readString_stringChars`**: strings are read back.
-/

namespace Cadence

namespace Document

/-! ## Numbers -/

/-- Bytes that cannot go on with a number. -/
def Stops (rest : Bytes) : Prop :=
  ∀ b ∈ rest.head?, digit? b = none ∧ b ≠ code '.' ∧ b ≠ code 'e' ∧ b ≠ code 'E'

theorem spanDigits_append (bs : Bytes) {rest : Bytes} (stops : Stops rest) :
    spanDigits (bs ++ rest) = ((spanDigits bs).1, (spanDigits bs).2 ++ rest) := by
  induction bs with
  | nil =>
    cases rest with
    | nil => rfl
    | cons b r =>
      have no := (stops b rfl).1
      simp [spanDigits, no]
  | cons b bs ih =>
    by_cases digit : (digit? b).isSome = true
    · obtain ⟨d, value⟩ := Option.isSome_iff_exists.mp digit
      simp only [spanDigits, Prod.mk.injEq] at ih
      simp [spanDigits, value, ih]
    · simp [spanDigits, digit]

theorem readSign_append {bs : Bytes} (ne : bs ≠ []) (rest : Bytes) :
    readSign (bs ++ rest) = ((readSign bs).1, (readSign bs).2 ++ rest) := by
  cases bs with
  | nil => exact absurd rfl ne
  | cons b r =>
    by_cases minus : b = code '-'
    · simp [readSign, minus]
    · simp [readSign, minus]

theorem readFraction_append {bs r rest : Bytes} {f : Option (List Nat)} (stops : Stops rest)
    (read : readFraction bs = some (f, r)) : readFraction (bs ++ rest) = some (f, r ++ rest) := by
  cases bs with
  | nil =>
    obtain ⟨rfl, rfl⟩ : none = f ∧ [] = r := by simpa [readFraction] using read
    cases rest with
    | nil => rfl
    | cons b r => simp [readFraction, (stops b rfl).2.1]
  | cons b bs =>
    by_cases point : b = code '.'
    · simp only [readFraction, point, if_true] at read
      simp only [List.cons_append, readFraction, point, if_true, spanDigits_append bs stops]
      split at read
      · cases read
      · next found =>
        obtain ⟨rfl, rfl⟩ : _ = f ∧ _ = r := by simpa using read
        simp [found]
    · obtain ⟨rfl, rfl⟩ : none = f ∧ b :: bs = r := by simpa [readFraction, point] using read
      simp [readFraction, point]

theorem readPowerSign_append {bs : Bytes} (ne : bs ≠ []) (rest : Bytes) :
    readPowerSign (bs ++ rest) = ((readPowerSign bs).1, (readPowerSign bs).2 ++ rest) := by
  cases bs with
  | nil => exact absurd rfl ne
  | cons b r =>
    by_cases minus : b = code '-'
    · simp [readPowerSign, minus]
    · by_cases plus : b = code '+'
      · have other : code '+' ≠ code '-' := by decide
        simp [readPowerSign, plus, other]
      · simp [readPowerSign, minus, plus]

theorem readPower_append {bs r rest : Bytes} {p : Option (Bool × List Nat)} (stops : Stops rest)
    (read : readPower bs = some (p, r)) : readPower (bs ++ rest) = some (p, r ++ rest) := by
  cases bs with
  | nil =>
    obtain ⟨rfl, rfl⟩ : none = p ∧ [] = r := by simpa [readPower] using read
    cases rest with
    | nil => rfl
    | cons b r => simp [readPower, (stops b rfl).2.2]
  | cons b bs =>
    by_cases power : (b = code 'e' || b = code 'E') = true
    · simp only [readPower, power, if_true] at read
      -- without a byte behind it the letter would not be followed by digits
      have more : bs ≠ [] := by
        rintro rfl
        simp [readPowerSign, spanDigits] at read
      simp only [List.cons_append, readPower, power, if_true, readPowerSign_append more,
        spanDigits_append _ stops]
      split at read
      · cases read
      · next found =>
        obtain ⟨rfl, rfl⟩ : _ = p ∧ _ = r := by simpa using read
        simp [found]
    · simp only [readPower, power, Bool.false_eq_true, if_false] at read
      obtain ⟨rfl, rfl⟩ : none = p ∧ b :: bs = r := by simpa using read
      simp only [List.cons_append, readPower, power, Bool.false_eq_true, if_false]

/-- **What stands behind a number** does not matter to it. -/
theorem readNumeral_append {bs r rest : Bytes} {t : Numeral} (stops : Stops rest)
    (read : readNumeral bs = some (t, r)) : readNumeral (bs ++ rest) = some (t, r ++ rest) := by
  have ne : bs ≠ [] := by
    rintro rfl
    cases read
  unfold readNumeral at read ⊢
  rw [readSign_append ne]
  dsimp only at read ⊢
  rw [spanDigits_append _ stops]
  dsimp only
  split at read
  · cases read
  · next whole =>
    rw [if_neg whole]
    obtain ⟨⟨f, r₁⟩, fraction, read⟩ := Option.bind_eq_some_iff.mp read
    obtain ⟨⟨p, r₂⟩, power, read⟩ := Option.bind_eq_some_iff.mp read
    obtain ⟨rfl, rfl⟩ : _ = t ∧ r₂ = r := by simpa using read
    have fraction' := readFraction_append stops fraction
    have power' := readPower_append stops power
    simp [fraction', power']

/-! ## Integers -/

theorem encodeChars_cons {c : Char} (ascii : c.toNat < 128) (cs : List Char) :
    Utf8.encodeChars (c :: cs) = code c :: Utf8.encodeChars cs := by
  have single : String.utf8EncodeChar c = [code c] := by
    have small : c.val.toNat ≤ 127 := by
      show c.toNat ≤ 127
      omega
    simp only [String.utf8EncodeChar]
    rw [if_pos small]
    rfl
  rw [Utf8.encodeChars, List.flatMap_cons, single]
  rfl

theorem encodeChars_append (cs ds : List Char) :
    Utf8.encodeChars (cs ++ ds) = Utf8.encodeChars cs ++ Utf8.encodeChars ds :=
  List.flatMap_append

/-- The value of a digit. -/
def digitValue (c : Char) : Nat := c.toNat - 48

theorem isDigit_iff {c : Char} : c.isDigit = true ↔ 48 ≤ c.toNat ∧ c.toNat ≤ 57 := by
  simp only [Char.isDigit, Bool.and_eq_true, decide_eq_true_eq, ge_iff_le, UInt32.le_iff_toNat_le]
  exact Iff.rfl

theorem digit?_code {c : Char} (digit : c.isDigit = true) :
    digit? (code c) = some (digitValue c) := by
  obtain ⟨low, high⟩ := isDigit_iff.mp digit
  have same : (code c).toNat = c.toNat := Utf8.toNat_ofNat (by omega)
  rw [digit?, same, if_pos ⟨low, high⟩]
  rfl

theorem spanDigits_encodeChars {cs : List Char} (digits : ∀ c ∈ cs, c.isDigit = true) :
    spanDigits (Utf8.encodeChars cs) = (cs.map digitValue, []) := by
  induction cs with
  | nil => rfl
  | cons c cs ih =>
    obtain ⟨first, others⟩ := List.forall_mem_cons.mp digits
    have ascii : c.toNat < 128 := by
      have := (isDigit_iff.mp first).2
      omega
    have ih := ih others
    simp only [spanDigits, Prod.mk.injEq] at ih
    rw [encodeChars_cons ascii]
    simp [spanDigits, digit?_code first, ih]

theorem leading_map {cs : List Char} {n : Nat} (small : Nat.ofDigitChars 10 cs n < Word.count) :
    leading n (cs.map digitValue) = (Nat.ofDigitChars 10 cs n, 0) := by
  induction cs generalizing n with
  | nil => rfl
  | cons c cs ih =>
    have grows (cs : List Char) (m : Nat) : m ≤ Nat.ofDigitChars 10 cs m := by
      induction cs generalizing m with
      | nil => exact Nat.le_refl _
      | cons c cs ih =>
        rw [Nat.ofDigitChars_cons]
        exact Nat.le_trans (by omega) (ih _)
    have value : 10 * n + (c.toNat - '0'.toNat) = n * 10 + digitValue c := by
      show 10 * n + (c.toNat - 48) = n * 10 + (c.toNat - 48)
      omega
    rw [Nat.ofDigitChars_cons, value] at small ⊢
    have first := Nat.lt_of_le_of_lt (grows cs _) small
    rw [List.map_cons, leading, if_neg (Nat.not_le.mpr first), ih small]

theorem head_toDigits {n : Nat} (pos : 0 < n) :
    ((Nat.toDigits 10 n).map digitValue).head? ≠ some 0 := by
  induction n using Nat.strongRecOn with
  | ind n ih =>
    by_cases small : n < 10
    · have digit : ∀ d < 10, 0 < d → digitValue (Nat.digitChar d) ≠ 0 := by decide
      rw [Nat.toDigits_of_lt_base small]
      simpa using digit n small pos
    · have rest := ih (n / 10) (by omega) (by omega)
      obtain ⟨c, cs, eq⟩ := List.exists_cons_of_ne_nil (Nat.toDigits_ne_nil (b := 10) (n := n / 10))
      rw [Nat.toDigits_of_base_le (by omega) (by omega), eq]
      rwa [eq] at rest

theorem code_ne_of_isDigit {c d : Char} (digit : c.isDigit = true) (other : d.isDigit = false)
    (ascii : d.toNat < 128) : code c ≠ code d := by
  intro eq
  obtain ⟨low, high⟩ := isDigit_iff.mp digit
  have same : d.toNat = c.toNat := by
    have := congrArg UInt8.toNat eq
    rw [code, code, Utf8.toNat_ofNat (by omega), Utf8.toNat_ofNat (by omega)] at this
    exact this.symm
  have : d.isDigit = true := isDigit_iff.mpr (by omega)
  rw [other] at this
  cases this

theorem readNumeral_digits (negative : Bool) (n : Nat) :
    readNumeral (Utf8.encodeChars ((if negative then ['-'] else []) ++ Nat.toDigits 10 n)) =
      some (⟨negative, (Nat.toDigits 10 n).map digitValue, none, none⟩, []) := by
  have digits : ∀ c ∈ Nat.toDigits 10 n, c.isDigit = true :=
    fun c mem => Nat.isDigit_of_mem_toDigits (by omega) (by omega) mem
  have whole : ¬ (((Nat.toDigits 10 n).map digitValue).isEmpty ||
      (((Nat.toDigits 10 n).map digitValue).head? = some 0 &&
        1 < ((Nat.toDigits 10 n).map digitValue).length)) = true := by
    by_cases small : n < 10
    · simp [Nat.toDigits_of_lt_base small]
    · have head := head_toDigits (n := n) (by omega)
      simp only [decide_eq_false head, Bool.false_and, Bool.or_false]
      simp [Nat.toDigits_ne_nil]
  have sign : readSign (Utf8.encodeChars ((if negative then ['-'] else []) ++ Nat.toDigits 10 n)) =
      (negative, Utf8.encodeChars (Nat.toDigits 10 n)) := by
    cases negative with
    | true => rw [if_pos rfl, List.singleton_append, encodeChars_cons (by decide)]; rfl
    | false =>
      obtain ⟨c, cs, eq⟩ := List.exists_cons_of_ne_nil (Nat.toDigits_ne_nil (b := 10) (n := n))
      have digit : c.isDigit = true := digits c (eq ▸ List.mem_cons_self)
      have other := code_ne_of_isDigit (d := '-') digit rfl (by decide)
      have ascii : c.toNat < 128 := by
        have := (isDigit_iff.mp digit).2
        omega
      rw [if_neg (by decide), List.nil_append, eq, encodeChars_cons ascii]
      simp [readSign, other]
  unfold readNumeral
  rw [sign]
  dsimp only
  rw [spanDigits_encodeChars digits]
  dsimp only
  rw [if_neg whole]
  rfl

/-- A text that is a numeral and stands for a value. -/
def Reads (bs : Bytes) (v : Json) : Prop := ∃ t, readNumeral bs = some (t, []) ∧ t.value? = some v

theorem reads_int {n : Int} (low : -(Word.leastSigned : Int) ≤ n) (high : n ≤ Word.largest) :
    Reads (Utf8.encode (toString n)) (.int n) := by
  have value (m : Nat) (small : m ≤ Word.largest) :
      leading 0 ((Nat.toDigits 10 m).map digitValue) = (m, 0) := by
    rw [leading_map, Nat.ofDigitChars_ten_toDigits]
    rw [Nat.ofDigitChars_ten_toDigits]
    exact Nat.lt_of_le_of_lt small Word.largest_lt_count
  have text : (toString n).toList =
      (if decide (n < 0) then ['-'] else []) ++ Nat.toDigits 10 n.natAbs := by
    show n.repr.toList = _
    rw [Int.repr_eq_if]
    by_cases negative : n < 0
    · rw [if_neg (by omega), show (-n).toNat = n.natAbs by omega]
      simp [negative, Nat.repr_eq_ofList_toDigits]
    · rw [if_pos (by omega), show n.toNat = n.natAbs by omega]
      simp [negative, Nat.repr_eq_ofList_toDigits]
  have bound : n.natAbs ≤ Word.largest := by
    simp only [Word.leastSigned, Word.largest] at low high ⊢
    omega
  refine ⟨⟨decide (n < 0), (Nat.toDigits 10 n.natAbs).map digitValue, none, none⟩, ?_, ?_⟩
  · rw [Utf8.encode, text, readNumeral_digits]
  · simp only [Numeral.value?, value n.natAbs bound]
    by_cases negative : n < 0
    · have small : n.natAbs ≤ Word.leastSigned := by omega
      have pos : 0 < n.natAbs := by omega
      have back : -(n.natAbs : Int) = n := by omega
      rw [if_neg (by simp [negative]), if_pos ⟨trivial, pos, small⟩, back]
    · rw [if_pos (by simp [negative]), Int.natAbs_of_nonneg (by omega)]

/-! ## Strings -/

theorem readPieces_raw {bs : Bytes}
    (plain : ∀ b ∈ bs, b ≠ code '"' ∧ b ≠ code '\\' ∧ 0x20 ≤ b.toNat) (fuel : Nat)
    (acc : List Piece) (r : Bytes) :
    readPieces (fuel + bs.length) acc (bs ++ r) =
      readPieces fuel ((bs.map .raw).reverse ++ acc) r := by
  induction bs generalizing acc with
  | nil => rfl
  | cons b bs ih =>
    obtain ⟨⟨quote, escape, low⟩, others⟩ := List.forall_mem_cons.mp plain
    have high : ¬ b.toNat < 0x20 := by omega
    simp only [List.length_cons, ← Nat.add_assoc, List.cons_append, readPieces, quote, escape, high,
      if_false, ih others, List.map_cons, List.reverse_cons, List.append_assoc]
    rfl

theorem assemble_raw (bs : Bytes) (ps : List Piece) :
    assemble (bs.map .raw ++ ps) = (assemble ps).map (bs ++ ·) := by
  induction bs with
  | nil => simp
  | cons b bs ih => simp [assemble, ih, Function.comp_def]

theorem plain_utf8EncodeChar {c : Char} (quote : c ≠ '"') (escape : c ≠ '\\')
    (high : 0x20 ≤ c.toNat) :
    ∀ b ∈ String.utf8EncodeChar c, b ≠ code '"' ∧ b ≠ code '\\' ∧ 0x20 ≤ b.toNat := by
  have far {b : UInt8} (large : 128 ≤ b.toNat) :
      b ≠ code '"' ∧ b ≠ code '\\' ∧ 0x20 ≤ b.toNat := by
    refine ⟨?_, ?_, by omega⟩
    · rintro rfl
      revert large
      decide
    · rintro rfl
      revert large
      decide
  have byte {n : Nat} (low : 128 ≤ n) (small : n < 256) : 128 ≤ (UInt8.ofNat n).toNat := by
    rw [Utf8.toNat_ofNat small]
    exact low
  by_cases ascii : c.toNat < 128
  · have single : String.utf8EncodeChar c = [code c] := by
      simpa [Utf8.encodeChars] using encodeChars_cons ascii []
    have value : (code c).toNat = c.toNat := Utf8.toNat_ofNat (by omega)
    rw [single]
    intro b mem
    obtain rfl := List.mem_singleton.mp mem
    refine ⟨?_, ?_, by omega⟩
    · intro eq
      have same : c.toNat = '"'.toNat := by rw [← value, eq]; rfl
      exact quote (Char.toNat_inj.mp same)
    · intro eq
      have same : c.toNat = '\\'.toNat := by rw [← value, eq]; rfl
      exact escape (Char.toNat_inj.mp same)
  · have large : ¬ c.val.toNat ≤ 127 := by
      show ¬ c.toNat ≤ 127
      omega
    intro b mem
    refine far ?_
    simp only [String.utf8EncodeChar, if_neg large] at mem
    split at mem
    · simp only [List.mem_cons, List.not_mem_nil, or_false] at mem
      rcases mem with rfl | rfl
      · exact byte (by omega) (by omega)
      · exact byte (by omega) (by omega)
    · split at mem
      · simp only [List.mem_cons, List.not_mem_nil, or_false] at mem
        rcases mem with rfl | rfl | rfl
        · exact byte (by omega) (by omega)
        · exact byte (by omega) (by omega)
        · exact byte (by omega) (by omega)
      · simp only [List.mem_cons, List.not_mem_nil, or_false] at mem
        rcases mem with rfl | rfl | rfl | rfl
        · exact byte (by omega) (by omega)
        · exact byte (by omega) (by omega)
        · exact byte (by omega) (by omega)
        · exact byte (by omega) (by omega)

/-- Pieces that a reader makes of some bytes, and the character that they stand for. -/
structure PiecesOf (bs : Bytes) (c : Char) (ps : List Piece) : Prop where
  read : ∀ fuel acc r, (bs ++ r).length < fuel → ∃ fuel', r.length < fuel' ∧
    readPieces fuel acc (bs ++ r) = readPieces fuel' (ps.reverse ++ acc) r
  stand : ∀ qs, assemble (ps ++ qs) = (assemble qs).map (String.utf8EncodeChar c ++ ·)

theorem piecesOf_simple {e : UInt8} {c : Char} (other : e ≠ code 'u')
    (letter : simpleEscape? e = some c) : PiecesOf [code '\\', e] c [.escaped c] where
  read fuel acc r enough := by
    cases fuel with
    | zero => exact absurd enough (Nat.not_lt_zero _)
    | succ fuel =>
      have quote : code '\\' ≠ code '"' := by decide
      refine ⟨fuel, ?_, ?_⟩
      · simp only [List.length_append, List.length_cons, List.length_nil] at enough
        omega
      · simp [readPieces, quote, other, letter]
  stand _ := rfl

theorem piecesOf_unit {c : Char} (low : c.toNat < 0x20) :
    PiecesOf (Utf8.encodeChars (Json.escapeUnit c)) c [.unit c.toNat] := by
  have digits : ∀ n < 0x20, (n / 16).digitChar.toNat < 128 ∧ (n % 16).digitChar.toNat < 128 ∧
      hexDigit? (code (n / 16).digitChar) = some (n / 16) ∧
      hexDigit? (code (n % 16).digitChar) = some (n % 16) := by decide
  obtain ⟨ascii, ascii', first, second⟩ := digits c.toNat low
  have bytes : Utf8.encodeChars (Json.escapeUnit c) = [code '\\', code 'u', code '0', code '0',
      code (c.toNat / 16).digitChar, code (c.toNat % 16).digitChar] := by
    unfold Json.escapeUnit
    rw [encodeChars_cons (by decide), encodeChars_cons (by decide), encodeChars_cons (by decide),
      encodeChars_cons (by decide), encodeChars_cons ascii, encodeChars_cons ascii']
    rfl
  rw [bytes]
  refine ⟨?_, ?_⟩
  · intro fuel acc r enough
    cases fuel with
    | zero => exact absurd enough (Nat.not_lt_zero _)
    | succ fuel =>
      have quote : code '\\' ≠ code '"' := by decide
      have zero : hexDigit? (code '0') = some 0 := by decide
      refine ⟨fuel, ?_, ?_⟩
      · simp only [List.length_append, List.length_cons, List.length_nil] at enough
        omega
      · have value : c.toNat / 16 * 16 + c.toNat % 16 = c.toNat := by omega
        simp [readPieces, readHex4, quote, zero, first, second, value]
  · intro qs
    have below : ¬ (0xDC00 ≤ c.toNat ∧ c.toNat < 0xE000) := by omega
    have below' : ¬ (0xD800 ≤ c.toNat ∧ c.toNat < 0xDC00) := by omega
    rw [List.singleton_append, assemble.eq_def]
    simp [below, below', Char.ofNat_toNat]

theorem exists_piecesOf (c : Char) :
    ∃ ps, PiecesOf (Utf8.encodeChars (Json.escapeChar c)) c ps := by
  by_cases quote : c = '"'
  · subst quote
    exact ⟨_, piecesOf_simple (e := code '"') (by decide) (by decide)⟩
  by_cases escape : c = '\\'
  · subst escape
    exact ⟨_, piecesOf_simple (e := code '\\') (by decide) (by decide)⟩
  by_cases back : c = '\x08'
  · subst back
    exact ⟨_, piecesOf_simple (e := code 'b') (by decide) (by decide)⟩
  by_cases feed : c = '\x0c'
  · subst feed
    exact ⟨_, piecesOf_simple (e := code 'f') (by decide) (by decide)⟩
  by_cases line : c = '\n'
  · subst line
    exact ⟨_, piecesOf_simple (e := code 'n') (by decide) (by decide)⟩
  by_cases ret : c = '\r'
  · subst ret
    exact ⟨_, piecesOf_simple (e := code 'r') (by decide) (by decide)⟩
  by_cases tab : c = '\t'
  · subst tab
    exact ⟨_, piecesOf_simple (e := code 't') (by decide) (by decide)⟩
  simp only [Json.escapeChar, quote, escape, back, feed, line, ret, tab, if_false]
  by_cases low : c.toNat < 0x20
  · rw [if_pos low]
    exact ⟨_, piecesOf_unit low⟩
  · have plain := plain_utf8EncodeChar quote escape (by omega)
    have bytes : Utf8.encodeChars [c] = String.utf8EncodeChar c := by simp [Utf8.encodeChars]
    rw [if_neg low, bytes]
    refine ⟨(String.utf8EncodeChar c).map .raw, ?_, assemble_raw _⟩
    intro fuel acc r enough
    rw [List.length_append] at enough
    refine ⟨fuel - (String.utf8EncodeChar c).length, by omega, ?_⟩
    rw [← readPieces_raw plain]
    congr 1
    omega

theorem readPieces_escaped (cs : List Char) (r : Bytes) {fuel : Nat} (acc : List Piece)
    (enough : (Utf8.encodeChars (cs.flatMap Json.escapeChar) ++ code '"' :: r).length < fuel) :
    ∃ ps, readPieces fuel acc (Utf8.encodeChars (cs.flatMap Json.escapeChar) ++ code '"' :: r) =
      some (ps.reverse ++ acc, r) ∧ assemble ps = some (Utf8.encodeChars cs) := by
  induction cs generalizing fuel acc with
  | nil =>
    cases fuel with
    | zero => exact absurd enough (Nat.not_lt_zero _)
    | succ fuel => exact ⟨[], by simp [Utf8.encodeChars, readPieces], rfl⟩
  | cons c cs ih =>
    rw [List.flatMap_cons, encodeChars_append, List.append_assoc] at enough ⊢
    obtain ⟨ps, pieces⟩ := exists_piecesOf c
    obtain ⟨fuel', enough', read⟩ := pieces.read fuel acc _ enough
    obtain ⟨qs, others, stand⟩ := ih (ps.reverse ++ acc) enough'
    refine ⟨ps ++ qs, ?_, ?_⟩
    · rw [read, others, List.reverse_append, List.append_assoc]
    · rw [pieces.stand, stand]
      simp [Utf8.encodeChars]

/-- **A string is read back.** -/
theorem readString_stringChars (s : String) (rest : Bytes) :
    readString (Utf8.encodeChars (s.toList.flatMap Json.escapeChar) ++ code '"' :: rest) =
      some (some s, rest) := by
  obtain ⟨ps, read, stand⟩ := readPieces_escaped s.toList rest [] (Nat.lt_add_one _)
  have back : Utf8.decode? (Utf8.encodeChars s.toList) = some s := Utf8.decode?_encode s
  unfold readString
  rw [read]
  simp [stand, back]

end Document

end Cadence
