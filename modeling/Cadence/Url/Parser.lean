import Cadence.Url.Basic

/-!
# Reading URLs

A text is read from the left: a scheme, an authority, a path, a query and a fragment. Under a
special scheme the authority may follow any number of slashes, a backslash is a slash, and there is
always a path.

* `Url.readPath`: segments, in which `.` and `..` are carried out;
* `Url.readAuthority`: credentials, a host and one of its ports;
* `Url.parse`: a whole URL.
-/

namespace Cadence.Url

/-- Text without blanks and control characters at its ends, and without tabs and line ends. -/
def clean (cs : List Char) : List Char :=
  let isEdge := fun c : Char => c.toNat ≤ 0x20
  let inner := ((cs.dropWhile isEdge).reverse.dropWhile isEdge).reverse
  inner.filter fun c => !(c = '\t' || c = '\n' || c = '\r')

/-- The characters of a scheme behind its first one. -/
def isSchemeChar (c : Char) : Bool := c.isAlphanum || c = '+' || c = '-' || c = '.'

/-- The scheme in lower case, and what follows its colon. -/
def readScheme (cs : List Char) : Option (String × List Char) :=
  if cs.head?.any Char.isAlpha then
    match cs.dropWhile isSchemeChar with
    | ':' :: r => some (String.ofList ((cs.takeWhile isSchemeChar).map Char.toLower), r)
    | _ => none
  else none

/-- The character separates segments. -/
def isSlash (special : Bool) (c : Char) : Bool := c = '/' || special && c = '\\'

/-- The character ends a path. -/
def endsPath (c : Char) : Bool := c = '?' || c = '#'

/-- The character ends an authority. -/
def endsAuthority (special : Bool) (c : Char) : Bool := isSlash special c || endsPath c

/-! ## Paths -/

/-- The segment stands for the directory itself. -/
def isDot (s : List Char) : Bool := s = ['.'] || s.map Char.toLower = "%2e".toList

/-- The segment stands for the directory above. -/
def isDotDot (s : List Char) : Bool :=
  ["..", ".%2e", "%2e.", "%2e%2e"].any fun t => s.map Char.toLower = t.toList

/-- The segment is the name of a drive. -/
def isDrive : List Char → Bool
  | [letter, mark] => letter.isAlpha && (mark = ':' || mark = '|')
  | _ => false

/-- Drop the last of the segments, which are listed from the last one; the name of a drive stays if
it is the first segment. -/
def shorten (file : Bool) : List (List Char) → List (List Char)
  | [drive] => if file && isDrive drive then [drive] else []
  | segments => segments.tail

/-- Write a segment. The name of a drive has a colon. -/
def writeSegment (file first : Bool) (s : List Char) : List Char :=
  if file && first && isDrive s then [s.headD 'c', ':'] else Percent.encode Percent.path s

/-- Carry out segments behind those that are listed from the last one. -/
def walk (file : Bool) (done : List (List Char)) : List (List Char) → List (List Char)
  | [] => done
  | s :: rest =>
    let done :=
      if isDotDot s then if rest.isEmpty then [] :: shorten file done else shorten file done
      else if isDot s then if rest.isEmpty then [] :: done else done
      else writeSegment file (done.all List.isEmpty) s :: done
    walk file done rest

/-- The segments of a path. A path of a file has no empty segments at its front. -/
def readPath (special file : Bool) (cs : List Char) : List String :=
  let cs := match cs with
    | c :: r => if isSlash special c then r else cs
    | [] => []
  let parts := (walk file [] (Address.splitOn (isSlash special) cs)).reverse
  let parts := if file then
      match parts.dropWhile List.isEmpty with
      | [] => [[]]
      | ps => ps
    else parts
  parts.map String.ofList

/-! ## Authorities -/

/-- Cut a text at the last character of a kind. -/
def cutAtLast (c : Char) (cs : List Char) : Option (List Char × List Char) :=
  if cs.contains c then
    let behind := (cs.reverse.takeWhile (· ≠ c)).reverse
    some (cs.take (cs.length - behind.length - 1), behind)
  else none

/-- Credentials before the sign that ends them. -/
def readCredentials (cs : List Char) : Credentials :=
  let write := fun s => String.ofList (Percent.encode Percent.userinfo s)
  let user := cs.takeWhile (· ≠ ':')
  match cs.dropWhile (· ≠ ':') with
  | [] | [_] => ⟨write user, none⟩
  | _ :: password => ⟨write user, some (write password)⟩

/-- Cut a host off the front of a text: it ends at a colon that is in no brackets, or with the
authority. -/
def cutHost (special bracketed : Bool) : List Char → List Char × List Char
  | [] => ([], [])
  | c :: cs =>
    if endsAuthority special c || c = ':' && !bracketed then ([], c :: cs)
    else
      let bracketed := c = '[' || bracketed && c ≠ ']'
      let (host, rest) := cutHost special bracketed cs
      (c :: host, rest)

/-- The number of one of the ports, and what follows it. What is usual for a scheme is left out. -/
def readPortNumber (scheme : String) (cs : List Char) : Except UrlFault (Option Nat × List Char) :=
  let ds := cs.takeWhile Char.isDigit
  let rest := cs.dropWhile Char.isDigit
  match Address.ofDigits? 10 ds with
  | none => .error .badPort
  | some n =>
    if 65535 < n ∨ rest.head?.any (fun c => !endsAuthority true c) then .error .badPort
    else .ok (if ds.isEmpty || usualPortNumber scheme = some n then none else some n, rest)

/-- Credentials, a host and one of its ports, and what follows them. -/
def readAuthority (scheme : String) (cs : List Char) :
    Except UrlFault (Credentials × Host × Option Nat × List Char) := do
  let special := isSpecial scheme
  let authority := cs.takeWhile fun c => !endsAuthority special c
  let rest := cs.drop authority.length
  let (credentials, cs) ← match cutAtLast '@' authority with
    | none => pure ((⟨"", none⟩ : Credentials), cs)
    | some ([], []) =>
      if rest.isEmpty then pure ((⟨"", none⟩ : Credentials), []) else throw .emptyHost
    | some (user, behind) => pure (readCredentials user, behind ++ rest)
  let (name, rest) := cutHost special false cs
  if special && name.isEmpty then throw .emptyHost
  let host ← if special then Host.readSpecial name else Host.readPlain name
  let portNumber := match rest with
    | ':' :: r => some r
    | _ => none
  if host.isEmpty && (portNumber.isSome || credentials.text ≠ "") then throw .emptyHost
  match portNumber with
  | none => return (credentials, host, none, rest)
  | some r =>
    let (portNumber, rest) ← readPortNumber scheme r
    return (credentials, host, portNumber, rest)

/-! ## Whole texts -/

/-- Read a query and a fragment behind a path. -/
def withTail (u : Url) (cs : List Char) : Url :=
  let write := fun escaped s => String.ofList (Percent.encode escaped s)
  let behind := cs.dropWhile (· ≠ '#')
  let query := match cs.takeWhile (· ≠ '#') with
    | '?' :: q =>
      some (write (if isSpecial u.scheme then Percent.specialQuery else Percent.query) q)
    | _ => none
  let fragment := match behind with
    | '#' :: f => some (write Percent.fragment f)
    | _ => none
  { u with query, fragment }

/-- Read a URL with an authority. -/
def parseRemote (scheme : String) (cs : List Char) : Except UrlFault Url := do
  let special := isSpecial scheme
  let (credentials, host, portNumber, rest) ← readAuthority scheme cs
  let path := rest.takeWhile fun c => !endsPath c
  let segments := if special || !path.isEmpty then readPath special false path else []
  let u : Url := { scheme, credentials, host := some host, portNumber, path := .segments segments }
  return u.withTail (rest.drop path.length)

/-- The host of a file, if one is named, and what follows. -/
def readFileHost (cs : List Char) : Except UrlFault (Host × List Char) :=
  match cs with
  | a :: b :: r =>
    if isSlash true a && isSlash true b then
      let name := r.takeWhile fun c => !endsAuthority true c
      if name.isEmpty || isDrive name then .ok (.name "", r)
      else
        (Host.readSpecial name).map fun h =>
          (if h = .name "localhost" then .name "" else h, r.drop name.length)
    else .ok (.name "", cs)
  | _ => .ok (.name "", cs)

/-- Read the URL of a file. -/
def parseFile (cs : List Char) : Except UrlFault Url := do
  let (host, rest) ← readFileHost cs
  let path := rest.takeWhile fun c => !endsPath c
  let segments := readPath true true path
  let u : Url := { scheme := "file", host := some host, path := .segments segments }
  return u.withTail (rest.drop path.length)

/-- Read a URL without an authority, of a scheme that is not special. -/
def parseLocal (scheme : String) (cs : List Char) : Url :=
  let path := cs.takeWhile fun c => !endsPath c
  let written : UrlPath :=
    if path.head? = some '/' then .segments (readPath false false path)
    else .bare (String.ofList (Percent.encode Percent.controls path))
  let u : Url := { scheme, path := written }
  u.withTail (cs.drop path.length)

/-- Read a URL that stands for itself. -/
def parse (s : String) : Except UrlFault Url :=
  match readScheme (clean s.toList) with
  | none => .error .relativeWithoutBase
  | some (scheme, cs) =>
    if scheme = "file" then parseFile cs
    else if isSpecial scheme then parseRemote scheme (cs.dropWhile (isSlash true))
    else
      match cs with
      | '/' :: '/' :: r => parseRemote scheme r
      | cs => .ok (parseLocal scheme cs)

end Cadence.Url
