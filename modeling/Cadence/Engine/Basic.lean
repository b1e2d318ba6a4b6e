import Cadence.Engine.Snapshot
import Cadence.Feedback.Apply
import Cadence.Module.Basic

/-!
# Engines

An engine holds a module, the outputs to compute, a configuration and the current input. A step
computes every declared output of the input with the step's number in it, feeds the outputs back,
and counts; a step that fails changes the error alone.

* `Engine`, `Engine.create`, `Engine.setInput`, `Engine.setConfig`, `Engine.snapshot`;
* `Engine.attempt`: the calls of a step and their result;
* `Engine.step`: one step.
-/

namespace Cadence

/-- The field of the input and of the outputs that holds the number of the step. -/
def stepField : String := "step"

/-- The state of an engine. -/
structure Engine where
  module : Module
  outputSpec : OutputSpec
  config : ExecutionConfig
  stepCount : Nat := 0
  input : Record
  outputs : Option Record := none
  error : Option String := none

/-- The calls made in a step, in order, and what came of them. -/
structure Attempt where
  called : List String
  result : Except Fault Record

namespace Engine

/-- A fresh engine. -/
def create (module : Module) (spec : OutputSpec) (config : ExecutionConfig) (input : Record) :
    Engine :=
  { module, outputSpec := spec, config, input }

/-- What callers see. -/
def snapshot (e : Engine) : Snapshot := ⟨e.stepCount, e.input, e.outputs, e.error⟩

/-- Replace the input; outputs and error are cleared, the step count stays. -/
def setInput (e : Engine) (input : Record) : Engine :=
  { e with input, outputs := none, error := none }

/-- Replace the configuration. -/
def setConfig (e : Engine) (config : ExecutionConfig) : Engine := { e with config }

/-- The functions of the declared outputs, or the first output without one. -/
def resolveAll (m : Module) : List String → Except Fault (List (String × OutputFn))
  | [] => .ok []
  | name :: r =>
    match m.output? name with
    | none => .error (.outputNotFound name)
    | some f => (resolveAll m r).map ((name, f) :: ·)

/-- Call functions in order up to the first fault, adding their values to `done`. -/
def callAll (input done : Record) : List (String × OutputFn) → Attempt
  | [] => ⟨[], .ok done⟩
  | (name, f) :: r =>
    match f input with
    | .error fault => ⟨[name], .error (.executionFailed name fault.cause)⟩
    | .ok v =>
      let rest := callAll input (done.insert name v) r
      ⟨name :: rest.called, rest.result⟩

/-- The input with the number of the coming step in it. -/
def effectiveInput (e : Engine) : Record := e.input.insert stepField (.nat (e.stepCount + 1))

/-- Resolve every declared output, and if none is missing call them by ascending name. -/
def attempt (e : Engine) : Attempt :=
  match resolveAll e.module e.outputSpec.keys with
  | .error fault => ⟨[], .error fault⟩
  | .ok fs => callAll e.effectiveInput .empty fs

/-- The outputs of the coming step, its number among them. -/
def stepOutputs (e : Engine) (results : Record) : Record :=
  results.insert stepField (.nat (e.stepCount + 1))

/-- One step. -/
def step (e : Engine) : Engine :=
  match e.attempt.result with
  | .error fault => { e with error := some fault.message }
  | .ok results =>
    { e with
      input := feedback e.config.mappings (e.stepOutputs results) e.effectiveInput
      outputs := some (e.stepOutputs results)
      stepCount := e.stepCount + 1
      error := none }

end Engine

end Cadence
