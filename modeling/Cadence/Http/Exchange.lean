import Cadence.Http.Status
import Cadence.Url.Parser

/-!
# HTTP exchanges

* `HttpRequest`, `HttpAnswer`, `Network`: what is sent, what comes back, and who answers;
* `HttpRequest.line`: the first line of a request;
* `HttpAnswer.content`: the body of an answer, if all of it has come;
* `Network.exchange`: send a request to a URL.
-/

namespace Cadence

/-- A request to a URL. -/
structure HttpRequest where
  verb : String
  url : Url
  body : Bytes := []

/-- The first line of a request. -/
def HttpRequest.line (r : HttpRequest) : String := r.verb ++ " " ++ r.url.target ++ " HTTP/1.1"

/-- An answer. It is cut off if the connection ends before its body does. -/
structure HttpAnswer where
  status : Nat
  body : Bytes
  cutOff : Bool := false

namespace HttpAnswer

/-- The body, if all of it has come. -/
def content (a : HttpAnswer) : Option Bytes :=
  if Status.hasBody a.status then if a.cutOff then none else some a.body else some []

/-- The body as a text. -/
def text (a : HttpAnswer) : Option String := a.content.map Utf8.decodeLossy

end HttpAnswer

/-- Who answers a request, or why nobody does. -/
abbrev Network := HttpRequest → Except String HttpAnswer

namespace Network

/-- Nobody answers. -/
def unreachable : Network := fun _ => .error "error sending request"

/-- Send a request. Only URLs of HTTP with a host are spoken to. -/
def exchange (n : Network) (r : HttpRequest) : Except String HttpAnswer :=
  if r.url.isHttp then n r else .error "URL scheme is not allowed"

end Network

end Cadence
