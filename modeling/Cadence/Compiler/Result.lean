import Cadence.Form.Field
import Cadence.Output.Spec

/-!
# Results of the schema compiler

* `CompileResult`: where the compiled module is, and the outputs and form it declares.
-/

namespace Cadence

/-- What the compiler makes of a schema. -/
structure CompileResult where
  artifact : Option String := none
  outputs : OutputSpec := .empty
  form : FormSchema := .empty

namespace CompileResult

/-- Read a result; everything may be left out. -/
def decoder : Decoder CompileResult := fun depth d => do
  let fs ← Fields.read ["artifact_url", "output_schema", "input_form_schema"] depth d
  let artifact ← fs.withDefault "artifact_url" none Decoder.string.option
  let outputs ← fs.withDefault "output_schema" .empty OutputSpec.decoder
  let form ← fs.withDefault "input_form_schema" .empty FormSchema.decoder
  return ⟨artifact, outputs, form⟩

/-- The written form. -/
def toJson (r : CompileResult) : Json :=
  .obj [("artifact_url", Json.orNull .str r.artifact),
    ("output_schema", OutputSpec.toJson r.outputs), ("input_form_schema", FormSchema.toJson r.form)]

end CompileResult

end Cadence
