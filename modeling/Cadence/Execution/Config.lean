import Cadence.Json.Decoder
import Cadence.Word

/-!
# Execution configurations

A configuration says whether outputs are fed back into the input between steps, and carries hints
for autoplay.

* `FeedbackMapping`, `ContinuousConfig`, `ExecutionConfig` and their written forms;
* `ExecutionConfig.mappings`, `limit`, `speed`, `autoStart`: what a configuration amounts to;
* `ExecutionConfig.playbackInterval`: the pace of autoplay in milliseconds.
-/

namespace Cadence

/-- Copy the value at a path of the outputs to a path of the next input. -/
structure FeedbackMapping where
  source : String
  target : String
deriving DecidableEq, Repr

namespace FeedbackMapping

/-- Read a mapping. -/
def decoder : Decoder FeedbackMapping := fun depth d => do
  let fs ← Fields.read ["from_output", "to_input"] depth d
  let source ← fs.required "from_output" Decoder.string
  let target ← fs.required "to_input" Decoder.string
  return ⟨source, target⟩

/-- The written form. -/
def toJson (m : FeedbackMapping) : Json :=
  .obj [("from_output", .str m.source), ("to_input", .str m.target)]

end FeedbackMapping

/-- Settings of continuous execution. -/
structure ContinuousConfig where
  mappings : List FeedbackMapping := []
  speed : Option Nat := none
  limit : Option Nat := none
  autoStart : Bool := false
deriving DecidableEq, Repr

namespace ContinuousConfig

/-- Read the settings; everything may be left out. -/
def decoder : Decoder ContinuousConfig := fun depth d => do
  let names := ["feedback_mappings", "playback_speed", "max_iterations", "auto_start"]
  let fs ← Fields.read names depth d
  let mappings ← fs.withDefault "feedback_mappings" [] FeedbackMapping.decoder.list
  let speed ← fs.withDefault "playback_speed" none (Decoder.unsigned Word.largest).option
  let limit ← fs.withDefault "max_iterations" none (Decoder.unsigned Word.largest).option
  let autoStart ← fs.withDefault "auto_start" false Decoder.bool
  return ⟨mappings, speed, limit, autoStart⟩

/-- A field that is left out if it has no value. -/
def optionalField (name : String) : Option Nat → List (String × Json)
  | some n => [(name, .nat n)]
  | none => []

/-- The written form. -/
def toJson (c : ContinuousConfig) : Json :=
  .obj (("feedback_mappings", .arr (c.mappings.map (·.toJson))) ::
    (optionalField "playback_speed" c.speed ++ optionalField "max_iterations" c.limit ++
      [("auto_start", .bool c.autoStart)]))

end ContinuousConfig

/-- How the next input follows from a step. -/
inductive ExecutionConfig
  | single
  | continuous (c : ContinuousConfig)
deriving DecidableEq, Repr

namespace ExecutionConfig

/-- The mappings in effect. -/
def mappings : ExecutionConfig → List FeedbackMapping
  | .single => []
  | .continuous c => c.mappings

/-- The number of iterations after which autoplay stops. -/
def limit : ExecutionConfig → Option Nat
  | .single => none
  | .continuous c => c.limit

/-- Milliseconds between steps. -/
def speed : ExecutionConfig → Option Nat
  | .single => none
  | .continuous c => c.speed

/-- Playback starts by itself. -/
def autoStart : ExecutionConfig → Bool
  | .single => false
  | .continuous c => c.autoStart

/-- The interval of a configuration without a speed. -/
def defaultInterval : Nat := 250

/-- The shortest interval that a speed can ask for. -/
def minInterval : Nat := 50

/-- Milliseconds from one step of autoplay to the next. -/
def playbackInterval (c : ExecutionConfig) : Nat := max (c.speed.getD defaultInterval) minInterval

/-- Continuous execution with the given mappings and no hints. -/
def ofMappings (ms : List FeedbackMapping) : ExecutionConfig := .continuous { mappings := ms }

/-- Read the settings behind a kind's name. -/
def readContent (kind : String) : Decoder ExecutionConfig := fun depth d =>
  if kind = "single" then
    match d with
    | .null => some .single
    | _ => none
  else if kind = "continuous" then (ContinuousConfig.decoder depth d).map .continuous
  else none

/-- The configuration of a kind without settings. -/
def withoutContent (kind : String) : Option ExecutionConfig :=
  if kind = "single" then some .single else none

/-- The member with key `type` comes before the one with key `continuous`. -/
def typeFirst : List (Option String × Document) → Bool
  | [] => true
  | (k, _) :: ms => k = some "type" || (k ≠ some "continuous" && typeFirst ms)

/-- Read a configuration. Settings in front of the kind are read as a value before they are looked
at, so nothing in them is skipped. -/
def decoder : Decoder ExecutionConfig
  | depth + 1, .arr [t, d] => do readContent (← Decoder.variant depth t) depth d
  | depth + 1, .obj members => do
    let given ← Fields.ofMembers ["type", "continuous"] members
    let kind ← Decoder.variant depth (← Entries.get? "type" given)
    match Entries.get? "continuous" given with
    | none => withoutContent kind
    | some d =>
      if typeFirst members then readContent kind depth d
      else do
        let _ ← d.value? depth
        readContent kind depth d
  | _, _ => none

/-- The written form. -/
def toJson : ExecutionConfig → Json
  | .single => .obj [("type", .str "single")]
  | .continuous c => .obj [("type", .str "continuous"), ("continuous", c.toJson)]

end ExecutionConfig

end Cadence
