import Cadence.Json.Document

/-!
# Percent escapes

A character that may not stand in a part of a URL is written as its UTF-8 bytes, each one a percent
sign and two hexadecimal digits.

* `Percent.Escaped`: the characters that a part escapes: `controls`, `fragment`, `query`,
  `specialQuery`, `path`, `userinfo`;
* `Percent.encode`: a text with its escapes;
* `Percent.decode`: the bytes of a text with escapes;
* **`Percent.decode_escapeByte`**: an escape stands for its byte.
-/

namespace Cadence.Percent

/-- The characters that are escaped in a part of a URL. -/
abbrev Escaped := Char → Bool

/-- Control characters and everything beyond ASCII. -/
def controls : Escaped := fun c => c.toNat < 0x20 || 0x7E < c.toNat

/-- Escaped in a fragment. -/
def fragment : Escaped := fun c => controls c || " \"<>`".toList.contains c

/-- Escaped in a query. -/
def query : Escaped := fun c => controls c || " \"#<>".toList.contains c

/-- Escaped in a query of a special scheme. -/
def specialQuery : Escaped := fun c => query c || c = '\''

/-- Escaped in a segment of a path. -/
def path : Escaped := fun c => fragment c || "#?\x7b\x7d".toList.contains c

/-- Escaped in the name and the password of a user. -/
def userinfo : Escaped := fun c => path c || "/:;=@[\\]^|".toList.contains c

/-- The hexadecimal digit of a number below sixteen. -/
def hexDigit (n : Nat) : Char := if n < 10 then Char.ofNat (n + 48) else Char.ofNat (n + 55)

/-- The escape of a byte. -/
def escapeByte (b : UInt8) : List Char := ['%', hexDigit (b.toNat / 16), hexDigit (b.toNat % 16)]

/-- A text with its escapes. -/
def encode (escaped : Escaped) (cs : List Char) : List Char :=
  cs.flatMap fun c => if escaped c then (String.utf8EncodeChar c).flatMap escapeByte else [c]

/-- The bytes of a text with escapes. A percent sign without two hexadecimal digits stands for
itself. -/
def decode : Bytes → Bytes
  | 0x25 :: a :: b :: r =>
    match Document.hexDigit? a, Document.hexDigit? b with
    | some x, some y => UInt8.ofNat (x * 16 + y) :: decode r
    | _, _ => 0x25 :: decode (a :: b :: r)
  | b :: r => b :: decode r
  | [] => []

theorem hexDigit?_code_hexDigit {n : Nat} (h : n < 16) :
    Document.hexDigit? (Document.code (hexDigit n)) = some n := by
  have all : ∀ m < 16, Document.hexDigit? (Document.code (hexDigit m)) = some m := by decide
  exact all n h

/-- **An escape stands for its byte.** -/
theorem decode_escapeByte (b : UInt8) (r : Bytes) :
    decode ((escapeByte b).map Document.code ++ r) = b :: decode r := by
  have hb : b.toNat < 256 := UInt8.toNat_lt b
  have h₁ := hexDigit?_code_hexDigit (n := b.toNat / 16) (by omega)
  have h₂ := hexDigit?_code_hexDigit (n := b.toNat % 16) (by omega)
  have hp : Document.code '%' = 0x25 := by decide
  simp only [escapeByte, List.map_cons, List.map_nil, List.cons_append, List.nil_append, hp, decode,
    h₁, h₂]
  rw [show b.toNat / 16 * 16 + b.toNat % 16 = b.toNat by omega, UInt8.ofNat_toNat]

end Cadence.Percent
