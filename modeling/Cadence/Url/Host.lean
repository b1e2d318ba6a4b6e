import Cadence.Url.Address
import Cadence.Url.Percent
import Cadence.Url.Punycode

/-!
# Hosts

* `UrlFault`: why a text is no URL, and the wording;
* `Host`, `Host.text`;
* `Host.readSpecial`: a host under a special scheme, which is an address or a domain in ASCII;
* `Host.readPlain`: a host under any other scheme, which is an address or an escaped text.
-/

namespace Cadence

/-- Why a text is no URL. -/
inductive UrlFault
  | relativeWithoutBase
  | emptyHost
  | badPort
  | badV4Address
  | badV6Address
  | badInternationalName
  | badHostCharacter
deriving DecidableEq, Repr

/-- The wording of a fault. -/
def UrlFault.message : UrlFault → String
  | .relativeWithoutBase => "relative URL without a base"
  | .emptyHost => "empty host"
  | .badPort => "invalid port number"
  | .badV4Address => "invalid IPv4 address"
  | .badV6Address => "invalid IPv6 address"
  | .badInternationalName => "invalid international domain name"
  | .badHostCharacter => "invalid domain character"

/-- Where a URL points. -/
inductive Host
  | name (text : String)
  | v4 (address : Nat)
  | v6 (groups : List Nat)
deriving DecidableEq, Repr

namespace Host

/-- The written form. -/
def text : Host → String
  | .name s => s
  | .v4 n => Address.v4Text n
  | .v6 gs => "[" ++ Address.v6Text gs ++ "]"

/-- The host has an empty name. -/
def isEmpty (h : Host) : Bool := h = .name ""

/-- An address of eight groups in brackets. -/
def readBracketed (cs : List Char) : Except UrlFault Host :=
  if cs.getLast? = some ']' then
    match Address.readV6? cs.dropLast with
    | some gs => .ok (.v6 gs)
    | none => .error .badV6Address
  else .error .badV6Address

/-! ## Domains -/

/-- Lower-case letters for capitals of Latin, Greek and Cyrillic script, ASCII for full-width forms,
a dot for other full stops, and nothing for what is not seen. -/
def fold (c : Char) : List Char :=
  let n := c.toNat
  let one := fun m => [Char.ofNat m]
  if 0x41 ≤ n ∧ n ≤ 0x5A then one (n + 32)
  else if n < 0x80 then [c]
  else if 0xC0 ≤ n ∧ n ≤ 0xDE ∧ n ≠ 0xD7 then one (n + 32)
  else if n = 0x130 then ['i', Char.ofNat 0x307]
  else if n = 0x178 then one 0xFF
  else if (0x100 ≤ n ∧ n ≤ 0x137 ∨ 0x14A ≤ n ∧ n ≤ 0x177) ∧ n % 2 = 0 then one (n + 1)
  else if (0x139 ≤ n ∧ n ≤ 0x148 ∨ 0x179 ≤ n ∧ n ≤ 0x17E) ∧ n % 2 = 1 then one (n + 1)
  else if 0x391 ≤ n ∧ n ≤ 0x3A9 then one (n + 32)
  else if 0x400 ≤ n ∧ n ≤ 0x40F then one (n + 80)
  else if 0x410 ≤ n ∧ n ≤ 0x42F then one (n + 32)
  else if n = 0x1E9E then one 0xDF
  else if 0xFF21 ≤ n ∧ n ≤ 0xFF3A then one (n - 0xFEC0)
  else if 0xFF01 ≤ n ∧ n ≤ 0xFF5E then one (n - 0xFEE0)
  else if n = 0x3002 ∨ n = 0xFF61 then ['.']
  else if n = 0xA0 ∨ n = 0x3000 then [' ']
  else if n = 0xAD ∨ n = 0x200B ∨ n = 0x2060 ∨ n = 0xFEFF ∨ 0xFE00 ≤ n ∧ n ≤ 0xFE0F then []
  else [c]

/-- The character may not stand in a domain. -/
def isForbidden (c : Char) : Bool :=
  c.toNat ≤ 0x20 || c.toNat = 0x7F || c.toNat = 0xFFFD || "%#/:<>?@[\\]^|".toList.contains c

/-- The ASCII form of a label. -/
def labelText (label : List Char) : List Char :=
  if label.all (·.toNat < 0x80) then label else "xn--".toList ++ Punycode.encode label

/-- The ASCII form of a domain. -/
def domain? (cs : List Char) : Option (List Char) :=
  let cs := cs.flatMap fold
  if cs.any isForbidden then none
  else some (['.'].intercalate ((Address.splitOn (· = '.') cs).map labelText))

/-- A host under a special scheme. -/
def readSpecial : List Char → Except UrlFault Host
  | '[' :: cs => readBracketed cs
  | cs =>
    match (Utf8.decode? (Percent.decode (Utf8.encodeChars cs))).bind fun s => domain? s.toList with
    | none => .error .badInternationalName
    | some [] => .error .emptyHost
    | some d =>
      if Address.endsInNumber d then
        match Address.readV4? d with
        | some n => .ok (.v4 n)
        | none => .error .badV4Address
      else .ok (.name (String.ofList d))

/-- A host under any other scheme. -/
def readPlain : List Char → Except UrlFault Host
  | '[' :: cs => readBracketed cs
  | cs =>
    if cs.any (" #/:<>?@[\\]^|\x00".toList.contains ·) then .error .badHostCharacter
    else .ok (.name (String.ofList (Percent.encode Percent.controls cs)))

end Host

end Cadence
