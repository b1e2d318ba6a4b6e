import Cadence.Module.Catalogue
import Cadence.Proofs.Engine.Iterations
import Cadence.Proofs.Engine.Outcome

/-!
# Declaring fewer outputs

Outputs are computed from the effective input alone, so a declared output can reach another one only
through the feedback of an earlier step. An engine without some outputs, none of which is fed back,
therefore takes the same steps, and shows the same values for the outputs it has.

* `Engine.Narrows`: one engine declares fewer outputs than another, and none that is fed back is
  left out;
* `feedback_congr`: feedback depends on the fields that mappings read;
* **`Engine.Narrows.step`**, **`Engine.Narrows.iterate`**: one step, and any number of steps;
* **`Engine.narrowed_steps`**: inputs, counts and outputs of the two engines.
-/

namespace Cadence

/-- The field of the outputs that a mapping reads, or reads below. -/
def FeedbackMapping.origin (m : FeedbackMapping) : String := (Path.ofText m.source).field

/-- **Feedback depends on the fields that mappings read**, and on no others. -/
theorem feedback_congr {ms : List FeedbackMapping} {outputs outputs' : Record}
    (same : ∀ m ∈ ms, outputs.get? m.origin = outputs'.get? m.origin) (input : Record) :
    feedback ms outputs input = feedback ms outputs' input := by
  refine List.foldl_ext _ _ input fun r m mem => ?_
  have read : Record.lookup? outputs (.ofText m.source) =
      Record.lookup? outputs' (.ofText m.source) :=
    congrArg (Option.bind · _) (same m mem)
  rw [FeedbackMapping.apply, FeedbackMapping.apply, read]

/-- A record holds the outputs of a spec and the number of the step, with the values that they have
in another record, and nothing else. -/
def OutputSpec.Restricts (spec : OutputSpec) (outputs all : Record) : Prop :=
  ∀ k, outputs.get? k = if k ∈ spec.keys ∨ k = stepField then all.get? k else none

namespace Engine

/-- An engine declares some of the outputs of another one, and is otherwise in the same state. No
other output than the number of the step is fed back but not declared. -/
structure Narrows (narrow wide : Engine) : Prop where
  module : narrow.module = wide.module
  config : narrow.config = wide.config
  count : narrow.stepCount = wide.stepCount
  input : narrow.input = wide.input
  declared : ∀ k ∈ narrow.outputSpec.keys, k ∈ wide.outputSpec.keys
  unread : ∀ m ∈ wide.config.mappings, m.origin ∈ wide.outputSpec.keys →
    m.origin ∈ narrow.outputSpec.keys ∨ m.origin = stepField

variable {narrow wide : Engine} {results : Record}

theorem Narrows.effectiveInput_eq (h : narrow.Narrows wide) :
    narrow.effectiveInput = wide.effectiveInput := by
  rw [effectiveInput, effectiveInput, h.input, h.count]

theorem Narrows.answer?_eq (h : narrow.Narrows wide) (k : String) :
    narrow.answer? k = wide.answer? k := by
  rw [answer?, answer?, h.module, h.effectiveInput_eq]

/-- If all outputs have values, so do some of them, and the same ones. -/
theorem Narrows.attempt (h : narrow.Narrows wide) (succeeded : wide.attempt.result = .ok results) :
    ∃ some, narrow.attempt.result = .ok some ∧
      narrow.outputSpec.Restricts (narrow.stepOutputs some) (wide.stepOutputs results) := by
  have giving : ∀ k ∈ narrow.outputSpec.keys, ∃ v, narrow.answer? k = some (.ok v) := by
    intro k mem
    obtain ⟨v, answer, -⟩ := (get?_of_attempt succeeded k).1 (h.declared k mem)
    exact ⟨v, (h.answer?_eq k).trans answer⟩
  obtain ⟨kept, attempted⟩ := attempt_of_giving giving
  have done : narrow.attempt.result = .ok kept := congrArg Attempt.result attempted
  refine ⟨kept, done, fun k => ?_⟩
  by_cases number : k = stepField
  · rw [if_pos (.inr number), number, stepOutputs_step, stepOutputs_step, h.count]
  rw [get?_stepOutputs number, get?_stepOutputs number]
  by_cases mem : k ∈ narrow.outputSpec.keys
  · obtain ⟨v, answer, shown⟩ := (get?_of_attempt done k).1 mem
    obtain ⟨v', answer', shown'⟩ := (get?_of_attempt succeeded k).1 (h.declared k mem)
    rw [h.answer?_eq, answer'] at answer
    cases answer
    rw [if_pos (.inl mem), shown, shown']
  · rw [if_neg (not_or.mpr ⟨mem, number⟩)]
    exact (get?_of_attempt done k).2 mem

theorem Narrows.feedback_eq (h : narrow.Narrows wide) {outputs : Record}
    (succeeded : wide.attempt.result = .ok results)
    (restricts : narrow.outputSpec.Restricts outputs (wide.stepOutputs results))
    (input : Record) :
    feedback narrow.config.mappings outputs input =
      feedback wide.config.mappings (wide.stepOutputs results) input := by
  rw [h.config]
  refine feedback_congr (fun m mem => ?_) input
  rw [restricts]
  split
  · rfl
  · next out =>
    have undeclared : m.origin ∉ wide.outputSpec.keys := fun known => out (h.unread m mem known)
    rw [get?_stepOutputs fun number => out (.inr number)]
    exact ((get?_of_attempt succeeded m.origin).2 undeclared).symm

/-- **One step.** If all outputs have values, then both engines step to the same input and count,
and one shows what the other shows of the outputs it declares. -/
theorem Narrows.step (h : narrow.Narrows wide) (succeeded : wide.step.error = none) :
    narrow.step.error = none ∧ narrow.step.Narrows wide.step ∧
      ∃ outputs all, narrow.step.outputs = some outputs ∧ wide.step.outputs = some all ∧
        narrow.outputSpec.Restricts outputs all := by
  cases attempted : wide.attempt.result with
  | error fault =>
    rw [step_error attempted] at succeeded
    cases succeeded
  | ok results =>
    obtain ⟨kept, done, restricts⟩ := h.attempt attempted
    have fed := h.feedback_eq attempted restricts wide.effectiveInput
    rw [step_ok attempted, step_ok done]
    refine ⟨rfl, ?_, _, _, rfl, rfl, restricts⟩
    exact {
      module := h.module
      config := h.config
      count := congrArg (· + 1) h.count
      input := by rw [h.effectiveInput_eq]; exact fed
      declared := h.declared
      unread := h.unread }

/-- **Any number of steps** of the one engine can be taken by the other. -/
theorem Narrows.iterate (h : narrow.Narrows wide) {n : Nat} (completes : stepper.Unfailing n wide)
    {i : Nat} (le : i ≤ n) : (Engine.step^[i] narrow).Narrows (Engine.step^[i] wide) := by
  induction i with
  | zero => exact h
  | succ i ih =>
    have succeeded : (Engine.step (Engine.step^[i] wide)).error = none := by
      rw [← Function.iterate_succ_apply' Engine.step]
      exact completes i le
    rw [Function.iterate_succ_apply', Function.iterate_succ_apply']
    exact ((ih (Nat.le_of_succ_le le)).step succeeded).2.1

theorem outputSpec_iterate (e : Engine) (i : Nat) :
    (Engine.step^[i] e).outputSpec = e.outputSpec := by
  induction i with
  | zero => rfl
  | succ i ih => rw [Function.iterate_succ_apply', step_outputSpec, ih]

/-- **Declaring more outputs does not change the others.** Let an engine complete some steps, and
consider the same engine with some of its declared outputs, such that no mapping reads an output
that is left out, other than the number of the step. It completes as many steps; inputs and counts
are the same behind each of them, and its outputs are those of the other engine that it declares,
and the number of the step. -/
theorem narrowed_steps (wide : Engine) (spec : OutputSpec)
    (contained : ∀ k ∈ spec.keys, k ∈ wide.outputSpec.keys)
    (unread : ∀ m ∈ wide.config.mappings, m.origin ∈ wide.outputSpec.keys →
      m.origin ∈ spec.keys ∨ m.origin = stepField)
    {n : Nat} (completes : stepper.Unfailing n wide) :
    let narrow := { wide with outputSpec := spec }
    stepper.Unfailing n narrow ∧
    (∀ i ≤ n, (Engine.step^[i] narrow).input = (Engine.step^[i] wide).input ∧
      (Engine.step^[i] narrow).stepCount = (Engine.step^[i] wide).stepCount) ∧
    ∀ i < n, ∃ outputs all, (Engine.step^[i + 1] narrow).outputs = some outputs ∧
      (Engine.step^[i + 1] wide).outputs = some all ∧
      ∀ k, outputs.get? k = if k ∈ spec.keys ∨ k = stepField then all.get? k else none := by
  intro narrow
  have start : narrow.Narrows wide := ⟨rfl, rfl, rfl, rfl, contained, unread⟩
  have each (i : Nat) (lt : i < n) := (start.iterate completes (Nat.le_of_lt lt)).step (by
    rw [← Function.iterate_succ_apply' Engine.step]
    exact completes i lt)
  refine ⟨fun i lt => ?_, fun i le => ?_, fun i lt => ?_⟩
  · show (Engine.step^[i + 1] narrow).error = none
    rw [Function.iterate_succ_apply']
    exact (each i lt).1
  · have related := start.iterate completes le
    exact ⟨related.input, related.count⟩
  · obtain ⟨-, -, outputs, all, shown, shown', restricts⟩ := each i lt
    rw [Function.iterate_succ_apply', Function.iterate_succ_apply']
    rw [OutputSpec.Restricts, outputSpec_iterate] at restricts
    exact ⟨outputs, all, shown, shown', restricts⟩

/-- An engine with a counter, a copy of the input, and an output `step`. The counter is fed back,
and the number of the step. -/
def counting : Engine :=
  create (.ofExports "mem://counting" [("_next", Catalogue.inc),
      ("_seen", fun r => .ok (.ofRecord r)), ("_step", fun _ => .ok .null)])
    ⟨[("next", {}), ("seen", {}), ("step", {})], by decide⟩
    (.ofMappings [⟨"next", "count"⟩, ⟨"step.0", "at"⟩, ⟨"step", "at"⟩]) .empty

/-- Without the copy and the output `step`, the counter is the same. -/
theorem narrowed_steps_counting :
    let narrow := { counting with outputSpec := ⟨[("next", {})], by decide⟩ }
    stepper.Unfailing 2 counting ∧ stepper.Unfailing 2 narrow ∧
    (Engine.step^[2] narrow).input = (Engine.step^[2] counting).input ∧
    ∃ outputs all, (Engine.step^[2] narrow).outputs = some outputs ∧
      (Engine.step^[2] counting).outputs = some all ∧
      ∀ k, outputs.get? k = if k ∈ ["next"] ∨ k = stepField then all.get? k else none := by
  intro narrow
  have completes : stepper.Unfailing 2 counting := by
    unfold Stepper.Unfailing
    decide +kernel
  obtain ⟨same, inputs, outputs⟩ :=
    narrowed_steps counting ⟨[("next", {})], by decide⟩ (by decide) (by decide) completes
  exact ⟨completes, same, (inputs 2 (Nat.le_refl 2)).1, outputs 1 Nat.one_lt_two⟩

end Engine

end Cadence
