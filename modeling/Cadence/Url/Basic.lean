import Cadence.Url.Host

/-!
# URLs

* `Url`, with its `Host` and `UrlPath`; `Url.text` writes it;
* `Url.target`: what a request line asks for;
* `Url.filePath?`: the path of a file that a URL names.
-/

namespace Cadence

/-- A user, who may have a password; both are escaped. -/
structure Credentials where
  user : String
  password : Option String := none
deriving DecidableEq, Repr

/-- Without a name and a password nobody is meant. -/
def Credentials.text (c : Credentials) : String :=
  match c.user, c.password with
  | "", none => ""
  | user, none => user ++ "@"
  | user, some password => user ++ ":" ++ password ++ "@"

/-- A path: escaped segments, or a text without structure. -/
inductive UrlPath
  | segments (parts : List String)
  | bare (text : String)
deriving DecidableEq, Repr

/-- A URL, with everything escaped that has to be. -/
structure Url where
  scheme : String
  credentials : Credentials := ⟨"", none⟩
  host : Option Host := none
  portNumber : Option Nat := none
  path : UrlPath
  query : Option String := none
  fragment : Option String := none
deriving DecidableEq, Repr

namespace Url

/-- Schemes with an authority and a path of segments, and their usual ports. -/
def specialSchemes : List (String × Option Nat) :=
  [("http", some 80), ("https", some 443), ("ws", some 80), ("wss", some 443), ("ftp", some 21),
    ("file", none)]

/-- The scheme is special. -/
def isSpecial (scheme : String) : Bool := specialSchemes.any (·.1 = scheme)

/-- Among the ports, the one of a scheme, which is not written. -/
def usualPortNumber (scheme : String) : Option Nat := (specialSchemes.lookup scheme).join

/-- The scheme of exchanges over HTTP. -/
def isHttp (u : Url) : Bool := u.scheme = "http" || u.scheme = "https"

/-- The written path. -/
def pathText (u : Url) : String :=
  match u.path with
  | .bare text => text
  | .segments parts => String.join (parts.map ("/" ++ ·))

/-- The authority, with the slashes before it. Without one, a path that would look like one is kept
apart from the scheme. -/
def authorityText (u : Url) : String :=
  match u.host, u.path with
  | some host, _ =>
    "//" ++ u.credentials.text ++ host.text ++ (u.portNumber.map fun p => ":" ++ toString p).getD ""
  | none, .segments ("" :: _ :: _) => "/."
  | none, _ => ""

/-- The written form. -/
def text (u : Url) : String :=
  u.scheme ++ ":" ++ u.authorityText ++ u.pathText ++ (u.query.map ("?" ++ ·)).getD "" ++
    (u.fragment.map ("#" ++ ·)).getD ""

/-- What a request line asks for. -/
def target (u : Url) : String := u.pathText ++ (u.query.map ("?" ++ ·)).getD ""

/-- A path that ends like the name of a drive names a directory. -/
def endsLikeDrive (path : Bytes) : Bool :=
  match path.reverse with
  | last :: letter :: _ :: _ =>
    (last = Document.code ':' || last = Document.code '|') && (Char.ofNat letter.toNat).isAlpha
  | _ => false

/-- The path of a file on this machine. -/
def filePath? (u : Url) : Option Bytes :=
  match u.path with
  | .bare _ => none
  | .segments parts =>
    if u.scheme = "file" && u.host.all fun h => h.isEmpty || h = .name "localhost" then
      let path := parts.flatMap fun p => Document.code '/' :: Percent.decode (Utf8.encode p)
      some (if endsLikeDrive path then path ++ [Document.code '/'] else path)
    else none

end Url

end Cadence
