import Cadence.Compiler.Result
import Cadence.Fault
import Cadence.Http.Exchange
import Cadence.Json.Printer
import Cadence.Text.Blank

/-!
# The client of the schema compiler

* `CompilerClient.create`: a client for a service, given its base URL;
* `CompilerClient.request`: the request for a schema;
* `CompilerClient.result`: what an answer says;
* `CompilerClient.compile`: a whole exchange.
-/

namespace Cadence

/-- A client of the service at an endpoint. -/
structure CompilerClient where
  endpoint : Url

namespace CompilerClient

/-- A text without the slashes at its end. -/
def withoutSlashes (s : String) : String :=
  String.ofList (s.toList.reverse.dropWhile (· = '/')).reverse

/-- A client for a base URL. -/
def create (base : String) : Except Fault CompilerClient :=
  match Url.parse (withoutSlashes base ++ "/api/kumi/compile") with
  | .ok endpoint => .ok ⟨endpoint⟩
  | .error f => .error (.config ("invalid compiler URL '" ++ base ++ "': " ++ f.message))

/-- The request for a schema. -/
def request (c : CompilerClient) (schema : String) : HttpRequest where
  verb := "POST"
  url := c.endpoint
  body := Utf8.encode (Json.obj [("schema_src", .str schema)]).toText

/-- The errors in the body of a failing answer. -/
def errorsDecoder : Decoder (List String) := fun depth d => do
  let fs ← Fields.read ["errors"] depth d
  fs.withDefault "errors" [] Decoder.string.list

/-- What a failing answer says: the first of its errors, or else its body. -/
def complaint (body : String) : String :=
  let said := match errorsDecoder.runText body with
    | some errors => errors.head?
    | none =>
      let text := Text.trim body
      if text.isEmpty then none else some text
  said.getD "Compilation failed"

/-- What an answer says. -/
def result (a : HttpAnswer) : Except Fault CompileResult :=
  match a.text with
  | none => .error (.compile "error decoding response body")
  | some body =>
    if Status.isSuccess a.status then
      match CompileResult.decoder.runText body with
      | some r => .ok r
      | none => .error (.serialization "malformed JSON")
    else .error (.compile (complaint body))

/-- Compile a schema. -/
def compile (c : CompilerClient) (n : Network) (schema : String) : Except Fault CompileResult :=
  match n.exchange (c.request schema) with
  | .error reason => .error (.compile reason)
  | .ok answer => result answer

end CompilerClient

end Cadence
