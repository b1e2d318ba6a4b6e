import Cadence.Json.Decoder
import Cadence.Word

/-!
# Snapshots

A snapshot is what a caller sees of an engine: its step count, its input, the outputs of the last
step and the error of the last operation.

* `Snapshot`, `Snapshot.withError`, `Snapshot.isError` and the written form;
* `IterationStep`: the input and the outputs of one step.
-/

namespace Cadence

/-- The state of an engine as callers see it. -/
structure Snapshot where
  stepCount : Nat := 0
  input : Record := .empty
  outputs : Option Record := none
  error : Option String := none
deriving Inhabited

namespace Snapshot

/-- The snapshot with another error. -/
def withError (s : Snapshot) (e : String) : Snapshot := { s with error := some e }

/-- The snapshot carries an error. -/
def isError (s : Snapshot) : Bool := s.error.isSome

/-- Read a snapshot. -/
def decoder : Decoder Snapshot := fun depth d => do
  let fs ← Fields.read ["step_count", "input", "outputs", "error"] depth d
  let stepCount ← fs.required "step_count" (Decoder.unsigned Word.largest)
  let input ← fs.required "input" Decoder.record
  let outputs ← fs.optional "outputs" Decoder.record
  let error ← fs.optional "error" Decoder.string
  return ⟨stepCount, input, outputs, error⟩

/-- The written form; absent outputs and errors are written as null. -/
def toJson (s : Snapshot) : Json :=
  .obj [("step_count", .nat s.stepCount), ("input", .ofRecord s.input),
    ("outputs", Json.orNull .ofRecord s.outputs), ("error", Json.orNull .str s.error)]

end Snapshot

/-- The input and the outputs of one step. -/
structure IterationStep where
  input : Record
  outputs : Record

namespace IterationStep

/-- Read a step. -/
def decoder : Decoder IterationStep := fun depth d => do
  let fs ← Fields.read ["input", "outputs"] depth d
  let input ← fs.required "input" Decoder.record
  let outputs ← fs.required "outputs" Decoder.record
  return ⟨input, outputs⟩

/-- The written form. -/
def toJson (s : IterationStep) : Json :=
  .obj [("input", .ofRecord s.input), ("outputs", .ofRecord s.outputs)]

end IterationStep

end Cadence
