import Cadence.Execution.Config
import Cadence.Feedback.Path

/-!
# Feedback

The next input is the current one with the mapped outputs written into it, in the order of the
mappings. A mapping whose source is absent does nothing.

* `FeedbackMapping.apply`, `feedback`: one mapping, and a list of them;
* `ExecutionConfig.feedback`: the mappings in effect.
-/

namespace Cadence

/-- Copy the source from the outputs to the target in the input, if the source is present. -/
def FeedbackMapping.apply (m : FeedbackMapping) (outputs input : Record) : Record :=
  match Record.lookup? outputs (.ofText m.source) with
  | some v => Record.assign input (.ofText m.target) v
  | none => input

/-- Apply mappings in order. -/
def feedback (ms : List FeedbackMapping) (outputs input : Record) : Record :=
  ms.foldl (fun r m => m.apply outputs r) input

/-- Apply the mappings of a configuration. -/
def ExecutionConfig.feedback (c : ExecutionConfig) (outputs input : Record) : Record :=
  Cadence.feedback c.mappings outputs input

end Cadence
