import Cadence.Engine.Basic
import Mathlib.Data.List.Forall2

/-!
# Steps of an engine

A step resolves every declared output, calls their functions one after the other, and is given up at
the first fault. What it does follows from the functions alone.

* `OutputSpec.ShownBy`: what the outputs of a step are to be;
* `Engine.succeeds`: every declared output has a function, which gives a value;
* `Engine.Blames`: the faults that a step can be given up for;
* `Engine.isOk_attempt`, `Engine.mem_keys_of_attempt`: what an attempt results in;
* **`Engine.step_of_succeeds`**, **`Engine.step_of_fails`**: the two things that a step can do;
* `Module.AgreeAt`, **`Engine.attempt_congr`**: functions are called with the step's number only.
-/

namespace Cadence

/-- A record holds the declared outputs and the number of a step, and nothing else. -/
def OutputSpec.ShownBy (spec : OutputSpec) (outputs : Record) (number : Nat) : Prop :=
  (∀ k, k ∈ outputs.keys ↔ k ∈ spec.keys ∨ k = stepField) ∧
    outputs.get? stepField = some (.nat number)

namespace Engine

/-- Every declared output has a function, and it gives a value in the coming step. -/
def succeeds (e : Engine) : Bool :=
  e.outputSpec.keys.all fun name =>
    (e.module.output? name).any fun f => (f e.effectiveInput).isOk

/-- A fault of the coming step: a declared output without a function, or with one that fails or
panics. -/
inductive Blames (e : Engine) : Fault → Prop
  | missing {name : String} (declared : name ∈ e.outputSpec.keys)
      (missing : e.module.output? name = none) : Blames e (.outputNotFound name)
  | failed {name : String} {f : OutputFn} {fault : CallFault} (declared : name ∈ e.outputSpec.keys)
      (found : e.module.output? name = some f) (failed : f e.effectiveInput = .error fault) :
      Blames e (.executionFailed name fault.cause)

theorem effectiveInput_step (e : Engine) :
    e.effectiveInput.get? stepField = some (.nat (e.stepCount + 1)) := by
  simp [effectiveInput, Dict.get?_insert]

theorem stepOutputs_step (e : Engine) (results : Record) :
    (e.stepOutputs results).get? stepField = some (.nat (e.stepCount + 1)) := by
  simp [stepOutputs, Dict.get?_insert]

/-! ## Resolving and calling -/

variable {m : Module} {names : List String} {input done results : Record}
  {fs : List (String × OutputFn)}

theorem resolveAll_ok (h : resolveAll m names = .ok fs) :
    names = fs.map (·.1) ∧ ∀ p ∈ fs, m.output? p.1 = some p.2 := by
  induction names generalizing fs with
  | nil =>
    cases h
    exact ⟨rfl, nofun⟩
  | cons name names ih =>
    unfold resolveAll at h
    split at h
    · cases h
    · next f found =>
      cases rest : resolveAll m names with
      | error fault => rw [rest] at h; cases h
      | ok fs' =>
        rw [rest] at h
        cases h
        obtain ⟨eq, resolved⟩ := ih rest
        exact ⟨congrArg _ eq, List.forall_mem_cons.mpr ⟨found, resolved⟩⟩

theorem resolveAll_error {fault : Fault} (h : resolveAll m names = .error fault) :
    ∃ name ∈ names, m.output? name = none ∧ fault = .outputNotFound name := by
  induction names with
  | nil => cases h
  | cons name names ih =>
    unfold resolveAll at h
    split at h
    · next missing =>
      cases h
      exact ⟨name, List.mem_cons_self, missing, rfl⟩
    · cases rest : resolveAll m names with
      | error fault' =>
        rw [rest] at h
        cases h
        obtain ⟨n, mem, missing⟩ := ih rest
        exact ⟨n, List.mem_cons_of_mem _ mem, missing⟩
      | ok fs => rw [rest] at h; cases h

theorem isOk_callAll (input done : Record) (fs : List (String × OutputFn)) :
    (callAll input done fs).result.isOk = fs.all fun p => (p.2 input).isOk := by
  induction fs generalizing done with
  | nil => rfl
  | cons p fs ih =>
    obtain ⟨name, f⟩ := p
    show _ = ((f input).isOk && fs.all _)
    rw [callAll]
    cases f input with
    | error fault => rfl
    | ok v => exact ih (done.insert name v)

theorem mem_keys_of_callAll (h : (callAll input done fs).result = .ok results) (k : String) :
    k ∈ results.keys ↔ k ∈ done.keys ∨ k ∈ fs.map (·.1) := by
  induction fs generalizing done with
  | nil =>
    cases h
    simp
  | cons p fs ih =>
    obtain ⟨name, f⟩ := p
    unfold callAll at h
    split at h
    · cases h
    · rw [ih h, Dict.mem_keys_insert, List.map_cons, List.mem_cons, or_comm (b := k ∈ done.keys),
        or_assoc]

theorem callAll_error {fault : Fault} (h : (callAll input done fs).result = .error fault) :
    ∃ p ∈ fs, ∃ cause, p.2 input = .error cause ∧ fault = .executionFailed p.1 cause.cause := by
  induction fs generalizing done with
  | nil => cases h
  | cons p fs ih =>
    obtain ⟨name, f⟩ := p
    unfold callAll at h
    split at h
    · next cause failed =>
      cases h
      exact ⟨_, List.mem_cons_self, cause, failed, rfl⟩
    · obtain ⟨q, mem, failed⟩ := ih h
      exact ⟨q, List.mem_cons_of_mem _ mem, failed⟩

/-! ## Attempts -/

variable {e : Engine}

theorem isOk_attempt (e : Engine) : e.attempt.result.isOk = e.succeeds := by
  unfold attempt
  split
  · next fault resolved =>
    obtain ⟨name, declared, missing, -⟩ := resolveAll_error resolved
    have fails : e.succeeds = false := List.all_eq_false.mpr ⟨name, declared, by simp [missing]⟩
    rw [fails]
    rfl
  · next fs resolved =>
    obtain ⟨eq, found⟩ := resolveAll_ok resolved
    rw [isOk_callAll, succeeds, eq, List.all_map, Bool.eq_iff_iff, List.all_eq_true,
      List.all_eq_true]
    refine forall₂_congr fun p mem => ?_
    simp [found p mem]

theorem mem_keys_of_attempt (h : e.attempt.result = .ok results) (k : String) :
    k ∈ results.keys ↔ k ∈ e.outputSpec.keys := by
  unfold attempt at h
  split at h
  · cases h
  · next fs resolved =>
    rw [mem_keys_of_callAll h, (resolveAll_ok resolved).1]
    exact or_iff_right List.not_mem_nil

theorem blames_of_attempt {fault : Fault} (h : e.attempt.result = .error fault) :
    e.Blames fault := by
  unfold attempt at h
  split at h
  · next resolved =>
    obtain ⟨name, declared, missing, rfl⟩ := resolveAll_error resolved
    cases h
    exact .missing declared missing
  · next fs resolved =>
    obtain ⟨eq, found⟩ := resolveAll_ok resolved
    obtain ⟨p, mem, cause, failed, rfl⟩ := callAll_error h
    refine .failed ?_ (found p mem) failed
    rw [eq]
    exact List.mem_map_of_mem mem

/-! ## Steps -/

theorem step_ok {results : Record} (attempted : e.attempt.result = .ok results) :
    e.step = { e with
      input := feedback e.config.mappings (e.stepOutputs results) e.effectiveInput
      outputs := some (e.stepOutputs results)
      stepCount := e.stepCount + 1
      error := none } := by
  unfold step
  rw [attempted]

theorem step_error {fault : Fault} (attempted : e.attempt.result = .error fault) :
    e.step = { e with error := some fault.message } := by
  unfold step
  rw [attempted]

/-- **A step that succeeds** counts, and shows the declared outputs and its number. -/
theorem step_of_succeeds (h : e.succeeds = true) :
    e.step.stepCount = e.stepCount + 1 ∧ e.step.error = none ∧
      ∃ outputs, e.step.outputs = some outputs ∧
        e.outputSpec.ShownBy outputs (e.stepCount + 1) := by
  rw [← isOk_attempt] at h
  cases result : e.attempt.result with
  | error fault => rw [result] at h; cases h
  | ok results =>
    rw [step_ok result]
    refine ⟨rfl, rfl, _, rfl, fun k => ?_, e.stepOutputs_step results⟩
    rw [stepOutputs, Dict.mem_keys_insert, mem_keys_of_attempt result]
    exact or_comm

/-- **A step that fails** changes the error alone, which tells of a fault of the functions. -/
theorem step_of_fails (h : e.succeeds = false) :
    ∃ fault, e.Blames fault ∧ e.step = { e with error := some fault.message } := by
  rw [← isOk_attempt] at h
  cases result : e.attempt.result with
  | error fault => exact ⟨fault, blames_of_attempt result, step_error result⟩
  | ok results => rw [result] at h; cases h

theorem step_module (e : Engine) : e.step.module = e.module := by
  unfold step
  split <;> rfl

theorem step_outputSpec (e : Engine) : e.step.outputSpec = e.outputSpec := by
  unfold step
  split <;> rfl

end Engine

/-! ## What functions are called with -/

/-- Two modules have functions for the same outputs, and the functions agree wherever the step field
of the input is the given number. -/
def Module.AgreeAt (n : Nat) (m m' : Module) : Prop :=
  ∀ name, Option.Rel (fun f f' => ∀ r : Record, r.get? stepField = some (.nat n) → f r = f' r)
    (m.output? name) (m'.output? name)

namespace Engine

variable {n : Nat} {m m' : Module}

theorem callAll_congr {input : Record} {fs fs' : List (String × OutputFn)}
    (agree : List.Forall₂ (fun p p' => p.1 = p'.1 ∧ p.2 input = p'.2 input) fs fs')
    (done : Record) : callAll input done fs = callAll input done fs' := by
  induction agree generalizing done with
  | nil => rfl
  | @cons p p' fs fs' same _ ih =>
    obtain ⟨name, f⟩ := p
    obtain ⟨name', f'⟩ := p'
    obtain ⟨rfl, value⟩ : name = name' ∧ f input = f' input := same
    unfold callAll
    rw [value]
    split
    · rfl
    · rw [ih]

theorem resolveAll_congr (agree : m.AgreeAt n m') (names : List String) :
    (∃ fault, resolveAll m names = .error fault ∧ resolveAll m' names = .error fault) ∨
    ∃ fs fs', resolveAll m names = .ok fs ∧ resolveAll m' names = .ok fs' ∧
      List.Forall₂ (fun p p' => p.1 = p'.1 ∧
        ∀ r : Record, r.get? stepField = some (.nat n) → p.2 r = p'.2 r) fs fs' := by
  induction names with
  | nil => exact .inr ⟨[], [], rfl, rfl, .nil⟩
  | cons name names ih =>
    have related := agree name
    unfold resolveAll
    cases found : m.output? name with
    | none =>
      rw [found] at related
      cases found' : m'.output? name with
      | none => exact .inl ⟨_, rfl, rfl⟩
      | some f' => rw [found'] at related; cases related
    | some f =>
      rw [found] at related
      cases found' : m'.output? name with
      | none => rw [found'] at related; cases related
      | some f' =>
        rw [found'] at related
        cases related with
        | some same =>
          rcases ih with ⟨fault, error, error'⟩ | ⟨fs, fs', ok, ok', rest⟩
          · exact .inl ⟨fault, by rw [error]; rfl, by rw [error']; rfl⟩
          · exact .inr ⟨(name, f) :: fs, (name, f') :: fs', by rw [ok]; rfl, by rw [ok']; rfl,
              .cons ⟨rfl, same⟩ rest⟩

/-- **A step's number reaches every function.** What a module's functions do with inputs of other
numbers makes no difference to the calls of a step and to their result. -/
theorem attempt_congr {e : Engine} (agree : e.module.AgreeAt (e.stepCount + 1) m') :
    ({ e with module := m' } : Engine).attempt = e.attempt := by
  unfold attempt
  rcases resolveAll_congr agree e.outputSpec.keys with
    ⟨fault, error, error'⟩ | ⟨fs, fs', ok, ok', related⟩
  · rw [error, error']
  · rw [ok, ok']
    refine (callAll_congr (related.imp fun _ _ same => ⟨same.1, ?_⟩) .empty).symm
    exact same.2 _ e.effectiveInput_step

end Engine

end Cadence
