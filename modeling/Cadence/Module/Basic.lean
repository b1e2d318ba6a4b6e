import Cadence.Fault
import Cadence.Json.Printer
import Cadence.Output.Spec
import Cadence.Text.Quoted

/-!
# Modules

A module is what a location gives: a table of named output functions. An output function takes the
effective input of a step to a value, and may fail or panic.

* `CallFault`, `OutputFn`, `Module`: functions, their faults, and tables of them;
* `Module.output?`: the function of a declared output;
* `Module.ofManifest`: a module whose exports name functions of a catalogue.
-/

namespace Cadence

/-- Why an output function gives no value. A panic may carry a text. -/
inductive CallFault
  | failed (cause : String)
  | panicked (payload : Option String)
deriving DecidableEq, Repr

/-- The cause that is reported for a fault. -/
def CallFault.cause : CallFault → String
  | .failed cause => cause
  | .panicked payload => payload.getD "output function panicked"

/-- A pure output function. -/
abbrev OutputFn := Record → Except CallFault Json

/-- A loaded module. -/
structure Module where
  location : String
  resolve : String → Option OutputFn

instance : Inhabited Module := ⟨⟨"", fun _ => none⟩⟩

namespace Module

/-- The function that computes a declared output. -/
def output? (m : Module) (name : String) : Option OutputFn := m.resolve (exportName name)

/-- The module with the given exports; a later one replaces an earlier one of the same name. -/
def ofExports (location : String) (exports : List (String × OutputFn)) : Module :=
  ⟨location, (Dict.ofList exports).get?⟩

/-- One line for diagnostics. -/
def shown (m : Module) : String :=
  "CompiledModule \x7b location: " ++ Text.quoted m.location ++ ", .. \x7d"

/-- The exports of a manifest: export names with the names of their functions. -/
def manifestDecoder : Decoder (Dict String) := fun depth d => do
  let fs ← Fields.read ["exports"] depth d
  fs.required "exports" Decoder.string.dict

/-- Look up the function of every export, in order of the export names. -/
def linkExports (catalogue : String → Option OutputFn) :
    List (String × String) → Except String (List (String × OutputFn))
  | [] => .ok []
  | (name, id) :: r =>
    match catalogue id with
    | none => .error ("export '" ++ name ++ "' refers to unknown function '" ++ id ++ "'")
    | some f => (linkExports catalogue r).map ((name, f) :: ·)

/-- The module of a manifest. -/
def ofManifest (catalogue : String → Option OutputFn) (location : String) (bytes : Bytes) :
    Except LoadFault Module :=
  match manifestDecoder.run bytes with
  | none => .error (.eval location "invalid module manifest: malformed JSON")
  | some exports =>
    match linkExports catalogue exports.toList with
    | .error reason => .error (.eval location reason)
    | .ok fs => .ok (ofExports location fs)

end Module

end Cadence
