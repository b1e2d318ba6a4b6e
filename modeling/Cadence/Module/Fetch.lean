import Cadence.Files.Access
import Cadence.Http.Exchange
import Cadence.Fault
import Cadence.Text.Blank

/-!
# Fetching modules

* `Fetch.overHttp`: the payload behind a URL; an answer that is no success fails with its status;
* `Fetch.fromFile`: the payload in a file, given by its path or by a URL;
* `Fetch.payload`: one or the other, by the scheme of the location.
-/

namespace Cadence.Fetch

/-- What a failing answer says: its body, or the phrase of its status if that is blank. -/
def complaint (a : HttpAnswer) : String :=
  let body := a.text.getD ""
  if (Text.trim body).isEmpty then (Status.reason? a.status).getD "request failed" else body

/-- Fetch from a URL. -/
def overHttp (n : Network) (location : String) : Except LoadFault Bytes :=
  let transport := fun reason => LoadFault.io location reason
  match Url.parse location with
  | .error f => .error (transport f.message)
  | .ok url =>
    match n.exchange { verb := "GET", url } with
    | .error reason => .error (transport reason)
    | .ok answer =>
      if Status.isSuccess answer.status then
        match answer.content with
        | some bytes => .ok bytes
        | none => .error (transport "error decoding response body")
      else .error (.transfer answer.status (complaint answer))

/-- The path that a location names; what is no URL of a file is a path itself. -/
def pathOf (location : String) : Bytes :=
  match (Url.parse location).toOption.bind Url.filePath? with
  | some path => path
  | none => Utf8.encode location

/-- Fetch from a file. -/
def fromFile (files : FileAccess) (location : String) : Except LoadFault Bytes :=
  (files.read (pathOf location)).mapError fun f => .io location f.message

/-- Fetch from a URL of HTTP, or else from a file. -/
def payload (n : Network) (files : FileAccess) (location : String) : Except LoadFault Bytes :=
  match Url.parse location with
  | .ok url => if url.isHttp then overHttp n location else fromFile files location
  | .error _ => fromFile files location

end Cadence.Fetch
