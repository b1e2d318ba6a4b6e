/-!
# UTF-8

Byte strings and their texts. A byte string is read from the left; what cannot be a character is
cut into its maximal ill-formed parts.

* `Utf8.encode`: the bytes of a text;
* `Utf8.next`: the first character, or an ill-formed part, and the bytes behind it;
* `Utf8.decode?`: the text of a well-formed byte string;
* `Utf8.decodeLossy`: the text with U+FFFD for every ill-formed part;
* **`Utf8.decode?_encode`**: a text is read back from its bytes.
-/

namespace Cadence

/-- A byte string. -/
abbrev Bytes := List UInt8

namespace Utf8

/-- The bytes of a list of characters. -/
def encodeChars (cs : List Char) : Bytes := cs.flatMap String.utf8EncodeChar

/-- The bytes of a text. -/
def encode (s : String) : Bytes := encodeChars s.toList

/-- The byte lies between two bounds. -/
def within (lo hi : Nat) (b : UInt8) : Bool := lo ≤ b.toNat && b.toNat ≤ hi

/-- The six payload bits of a continuation byte. -/
def payload (b : UInt8) : Nat := b.toNat % 64

/-- Read the continuation bytes behind a lead byte: `bounds` lists the bytes allowed at each
position, `acc` holds the bits so far. The result is none at the first byte that is not allowed. -/
def continueChar (acc : Nat) : List (Nat × Nat) → Bytes → Option Char × Bytes
  | [], r => (some (Char.ofNat acc), r)
  | _ :: _, [] => (none, [])
  | (lo, hi) :: bs, b :: r =>
    if within lo hi b then continueChar (acc * 64 + payload b) bs r else (none, b :: r)

/-- The first character of `b :: r`, or none for an ill-formed part, and what follows it. -/
def next (b : UInt8) (r : Bytes) : Option Char × Bytes :=
  let n := b.toNat
  let tail := (0x80, 0xBF)
  if n < 0x80 then (some (Char.ofNat n), r)
  else if 0xC2 ≤ n ∧ n ≤ 0xDF then continueChar (n % 32) [tail] r
  else if n = 0xE0 then continueChar (n % 16) [(0xA0, 0xBF), tail] r
  else if n = 0xED then continueChar (n % 16) [(0x80, 0x9F), tail] r
  else if 0xE1 ≤ n ∧ n ≤ 0xEF then continueChar (n % 16) [tail, tail] r
  else if n = 0xF0 then continueChar (n % 8) [(0x90, 0xBF), tail, tail] r
  else if n = 0xF4 then continueChar (n % 8) [(0x80, 0x8F), tail, tail] r
  else if 0xF1 ≤ n ∧ n ≤ 0xF3 then continueChar (n % 8) [tail, tail, tail] r
  else (none, r)

theorem continueChar_length (acc : Nat) (bs : List (Nat × Nat)) (r : Bytes) :
    (continueChar acc bs r).2.length ≤ r.length := by
  induction bs generalizing acc r with
  | nil => exact Nat.le_refl _
  | cons p bs ih =>
    cases r with
    | nil => exact Nat.le_refl _
    | cons b r =>
      simp only [continueChar]
      split
      · exact Nat.le_succ_of_le (ih _ r)
      · exact Nat.le_refl _

theorem next_length (b : UInt8) (r : Bytes) : (next b r).2.length ≤ r.length := by
  simp only [next]
  split
  · exact Nat.le_refl _
  · repeat' split
    all_goals first | exact continueChar_length _ _ _ | exact Nat.le_refl _

/-- Characters and ill-formed parts in order. -/
def parts : Bytes → List (Option Char)
  | [] => []
  | b :: r => (next b r).1 :: parts (next b r).2
termination_by bs => bs.length
decreasing_by exact Nat.lt_succ_of_le (next_length b r)

/-- The characters of a well-formed byte string. -/
def decodeChars? (bs : Bytes) : Option (List Char) := (parts bs).mapM id

/-- The text of a well-formed byte string. -/
def decode? (bs : Bytes) : Option String := (decodeChars? bs).map String.ofList

/-- The text of a byte string, U+FFFD standing for each ill-formed part. -/
def decodeLossy (bs : Bytes) : String :=
  String.ofList ((parts bs).map fun c => c.getD '\uFFFD')

/-! ## Reading back -/

theorem toNat_ofNat {n : Nat} (h : n < 256) : (UInt8.ofNat n).toNat = n :=
  UInt8.toNat_ofNat_of_lt h

theorem continueChar_ofNat {acc lo hi x : Nat} (bs : List (Nat × Nat)) (r : Bytes)
    (hx : x < 64) (hl : lo ≤ x + 128) (hh : x + 128 ≤ hi) :
    continueChar acc ((lo, hi) :: bs) (UInt8.ofNat (x + 128) :: r) =
      continueChar (acc * 64 + x) bs r := by
  have h : (UInt8.ofNat (x + 128)).toNat = x + 128 := toNat_ofNat (by omega)
  have hp : payload (UInt8.ofNat (x + 128)) = x := by rw [payload, h]; omega
  have hw : within lo hi (UInt8.ofNat (x + 128)) = true := by rw [within, h]; simp [hl, hh]
  rw [continueChar, if_pos hw, hp]

theorem next_encodeChar (c : Char) (r : Bytes) :
    ∃ b s, String.utf8EncodeChar c ++ r = b :: s ∧ next b s = (some c, r) := by
  have hv : c.val.toNat < 55296 ∨ 57343 < c.val.toNat ∧ c.val.toNat < 1114112 := c.valid
  have hc : Char.ofNat c.val.toNat = c := Char.ofNat_toNat c
  simp only [String.utf8EncodeChar]
  generalize c.val.toNat = v at hv hc
  split
  · refine ⟨_, r, rfl, ?_⟩
    have h : (UInt8.ofNat v).toNat = v := toNat_ofNat (by omega)
    simp only [next, h, if_pos (show v < 128 by omega), hc]
  split
  · refine ⟨_, _ :: r, rfl, ?_⟩
    have h : (UInt8.ofNat (v / 64 % 32 + 192)).toNat = v / 64 % 32 + 192 :=
      toNat_ofNat (by omega)
    simp only [next, h]
    rw [if_neg (by omega), if_pos (by omega),
      continueChar_ofNat _ _ (by omega) (by omega) (by omega)]
    rw [continueChar, show (v / 64 % 32 + 192) % 32 * 64 + v % 64 = v by omega, hc]
  split
  · refine ⟨_, _ :: _ :: r, rfl, ?_⟩
    have h : (UInt8.ofNat (v / 4096 % 16 + 224)).toNat = v / 4096 % 16 + 224 :=
      toNat_ofNat (by omega)
    have hd : ((v / 4096 % 16 + 224) % 16 * 64 + v / 64 % 64) * 64 + v % 64 = v := by omega
    have finish (lo hi : Nat) (hl : lo ≤ v / 64 % 64 + 128) (hh : v / 64 % 64 + 128 ≤ hi) :
        continueChar ((v / 4096 % 16 + 224) % 16) [(lo, hi), (128, 191)]
          (UInt8.ofNat (v / 64 % 64 + 128) :: UInt8.ofNat (v % 64 + 128) :: r) = (some c, r) := by
      rw [continueChar_ofNat _ _ (by omega) hl hh,
        continueChar_ofNat _ _ (by omega) (by omega) (by omega),
        continueChar, hd, hc]
    simp only [next, h]
    rw [if_neg (by omega), if_neg (by omega)]
    split
    · exact finish _ _ (by omega) (by omega)
    split
    · exact finish _ _ (by omega) (by omega)
    rw [if_pos (by omega)]
    exact finish _ _ (by omega) (by omega)
  · refine ⟨_, _ :: _ :: _ :: r, rfl, ?_⟩
    have h : (UInt8.ofNat (v / 262144 % 8 + 240)).toNat = v / 262144 % 8 + 240 :=
      toNat_ofNat (by omega)
    have hd : (((v / 262144 % 8 + 240) % 8 * 64 + v / 4096 % 64) * 64 + v / 64 % 64) * 64 +
        v % 64 = v := by
      omega
    have finish (lo hi : Nat) (hl : lo ≤ v / 4096 % 64 + 128) (hh : v / 4096 % 64 + 128 ≤ hi) :
        continueChar ((v / 262144 % 8 + 240) % 8) [(lo, hi), (128, 191), (128, 191)]
          (UInt8.ofNat (v / 4096 % 64 + 128) :: UInt8.ofNat (v / 64 % 64 + 128) ::
            UInt8.ofNat (v % 64 + 128) :: r) = (some c, r) := by
      rw [continueChar_ofNat _ _ (by omega) hl hh,
        continueChar_ofNat _ _ (by omega) (by omega) (by omega),
        continueChar_ofNat _ _ (by omega) (by omega) (by omega), continueChar, hd, hc]
    simp only [next, h]
    rw [if_neg (by omega), if_neg (by omega), if_neg (by omega), if_neg (by omega),
      if_neg (by omega)]
    split
    · exact finish _ _ (by omega) (by omega)
    split
    · exact finish _ _ (by omega) (by omega)
    rw [if_pos (by omega)]
    exact finish _ _ (by omega) (by omega)

theorem parts_encodeChar (c : Char) (r : Bytes) :
    parts (String.utf8EncodeChar c ++ r) = some c :: parts r := by
  obtain ⟨b, s, h, hn⟩ := next_encodeChar c r
  rw [h, parts, hn]

theorem parts_encodeChars (cs : List Char) : parts (encodeChars cs) = cs.map some := by
  induction cs with
  | nil => simp [encodeChars, parts]
  | cons c r ih =>
    rw [encodeChars, List.flatMap_cons, parts_encodeChar, ← encodeChars, ih, List.map_cons]

/-- **A text is read back from its bytes.** -/
theorem decode?_encode (s : String) : decode? (encode s) = some s := by
  have h (cs : List Char) : (cs.map some).mapM id = some cs := by
    induction cs with
    | nil => rfl
    | cons c r ih => simp [List.mapM_cons, ih]
  simp [decode?, decodeChars?, encode, parts_encodeChars, h]

end Utf8

end Cadence
