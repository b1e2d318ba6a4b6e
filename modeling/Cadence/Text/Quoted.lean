import Cadence.Text.Blank

/-!
# Quoted text for diagnostics

A quoted text stands between double quotes on one line: quotes and backslashes are escaped, the
common control characters have letters, and any other character that would not show as a sign of
its own is written by its code point.

* `Text.isPlain`: the character is written as it is;
* `Text.quoted`: the quoted form.
-/

namespace Cadence.Text

/-- Code points of format controls, private use and the common combining marks, as closed ranges. -/
def unseenRanges : List (Nat × Nat) :=
  [(0x00, 0x1F), (0x7F, 0x9F), (0xAD, 0xAD), (0x300, 0x36F), (0x483, 0x489), (0x591, 0x5BD),
    (0x600, 0x605), (0x610, 0x61A), (0x61C, 0x61C), (0x64B, 0x65F), (0x6DD, 0x6DD), (0x70F, 0x70F),
    (0x180B, 0x180F), (0x1AB0, 0x1ACE), (0x1DC0, 0x1DFF), (0x200B, 0x200F), (0x2028, 0x202E),
    (0x2060, 0x206F), (0x20D0, 0x20F0), (0x302A, 0x302F), (0x3099, 0x309A), (0xE000, 0xF8FF),
    (0xFE00, 0xFE0F), (0xFE20, 0xFE2F), (0xFEFF, 0xFEFF), (0xFFF0, 0xFFFB), (0xFFFE, 0xFFFF),
    (0xE0000, 0x10FFFF)]

/-- The character shows as a sign of its own, so that it needs no escape. -/
def isPlain (c : Char) : Bool :=
  c = ' ' || !(isBlank c || unseenRanges.any fun r => r.1 ≤ c.toNat && c.toNat ≤ r.2)

/-- One character of a quoted text. -/
def quotedChar (c : Char) : List Char :=
  if c = '"' then ['\\', '"']
  else if c = '\\' then ['\\', '\\']
  else if c = '\t' then ['\\', 't']
  else if c = '\n' then ['\\', 'n']
  else if c = '\r' then ['\\', 'r']
  else if c = Char.ofNat 0 then ['\\', '0']
  else if isPlain c then [c]
  else '\\' :: 'u' :: '\x7b' :: Nat.toDigits 16 c.toNat ++ ['\x7d']

/-- The quoted form of a text. -/
def quoted (s : String) : String :=
  String.ofList ('"' :: s.toList.flatMap quotedChar ++ ['"'])

end Cadence.Text
