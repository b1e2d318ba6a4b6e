import Cadence.Proofs.Engine.Attempt

/-!
# Which fault a step reports

A step looks for all functions before it calls one, and calls them by ascending name up to the first
that gives no value. So a missing function comes before any fault of a call, and of several faults
of one kind the one with the least name is reported.

* `Engine.answer?`: what the function of an output makes of the coming step's input;
* `Least`: the least of some names with a property;
* `Engine.resolveAll_of_missing`, `Engine.callAll_of_failing`: the two places where a step is given
  up;
* `Engine.get?_of_attempt`: the outputs of a step that succeeds;
* `Engine.attempt_congr_called`: functions that are not called make no difference;
* **`Engine.attempt_reports`**: the calls of a step, and what it reports.
-/

namespace Cadence

/-- The least of some names with a property. -/
structure Least (names : List String) (P : String → Prop) (name : String) : Prop where
  mem : name ∈ names
  holds : P name
  least : ∀ other ∈ names, P other → name ≤ other

theorem Least.unique {names : List String} {P Q : String → Prop} {a b : String}
    (first : Least names P a) (second : Least names Q b) (same : ∀ name ∈ names, P name ↔ Q name) :
    a = b :=
  String.le_antisymm (first.least b second.mem ((same b second.mem).mpr second.holds))
    (second.least a first.mem ((same a first.mem).mp first.holds))

/-- What is told of a call without a value: the text of its failure, or of its panic if that carries
one. -/
inductive CallFault.Told : CallFault → String → Prop
  | failed (text : String) : Told (.failed text) text
  | panicked (text : String) : Told (.panicked (some text)) text
  | silent : Told (.panicked none) "output function panicked"

theorem CallFault.told_cause (fault : CallFault) : fault.Told fault.cause := by
  cases fault with
  | failed text => exact .failed text
  | panicked payload =>
    cases payload with
    | none => exact .silent
    | some text => exact .panicked text

theorem OutputSpec.pairwise_keys (spec : OutputSpec) : spec.keys.Pairwise (· < ·) :=
  List.pairwise_map.mpr spec.ascending

theorem OutputSpec.nodup_keys (spec : OutputSpec) : spec.keys.Nodup :=
  spec.pairwise_keys.imp fun {a b} (lt : a < b) (eq : a = b) => String.lt_irrefl b (eq ▸ lt)

namespace Engine

/-- What the function of an output answers in the coming step, if there is a function. -/
def answer? (e : Engine) (name : String) : Option (Except CallFault Json) :=
  (e.module.resolve ("_" ++ name)).map fun f => f e.effectiveInput

variable {m : Module} {names : List String} {input done results : Record}
  {fs : List (String × OutputFn)}

/-! ## Resolving -/

theorem resolveAll_of_missing (ascending : names.Pairwise (· < ·))
    (missing : ∃ name ∈ names, m.output? name = none) :
    ∃ name, Least names (fun name => m.output? name = none) name ∧
      resolveAll m names = .error (.outputNotFound name) := by
  induction names with
  | nil => simp at missing
  | cons first names ih =>
    obtain ⟨before, ascending⟩ := List.pairwise_cons.mp ascending
    cases found : m.output? first with
    | none =>
      refine ⟨first, ⟨List.mem_cons_self, found, ?_⟩, by rw [resolveAll, found]⟩
      exact List.forall_mem_cons.mpr
        ⟨fun _ => String.le_refl _, fun other mem _ => Std.le_of_lt (before other mem)⟩
    | some f =>
      have later : ∃ name ∈ names, m.output? name = none := by
        simpa [found] using missing
      obtain ⟨name, least, error⟩ := ih ascending later
      refine ⟨name, ⟨List.mem_cons_of_mem _ least.mem, least.holds, ?_⟩, ?_⟩
      · refine List.forall_mem_cons.mpr ⟨fun none => ?_, least.least⟩
        rw [found] at none
        cases none
      · rw [resolveAll, found, error]
        rfl

theorem exists_of_resolveAll (found : ∀ name ∈ names, m.output? name ≠ none) :
    ∃ fs, resolveAll m names = .ok fs := by
  cases resolved : resolveAll m names with
  | ok fs => exact ⟨fs, rfl⟩
  | error fault =>
    obtain ⟨name, mem, missing, -⟩ := resolveAll_error resolved
    exact absurd missing (found name mem)

/-! ## Calling -/

theorem callAll_of_failing (ascending : (fs.map (·.1)).Pairwise (· < ·))
    (failing : ∃ p ∈ fs, ∃ fault, p.2 input = .error fault) (done : Record) :
    ∃ p ∈ fs, ∃ fault, p.2 input = .error fault ∧
      (∀ q ∈ fs, (∃ fault, q.2 input = .error fault) → p.1 ≤ q.1) ∧
      callAll input done fs =
        ⟨(fs.map (·.1)).filter (· ≤ p.1), .error (.executionFailed p.1 fault.cause)⟩ := by
  induction fs generalizing done with
  | nil => simp at failing
  | cons first fs ih =>
    obtain ⟨name, f⟩ := first
    rw [List.map_cons, List.pairwise_cons] at ascending
    obtain ⟨before, ascending⟩ := ascending
    have behind : ∀ q ∈ fs, name < q.1 := fun q mem => before _ (List.mem_map_of_mem mem)
    cases value : f input with
    | error fault =>
      have only : (fs.map (·.1)).filter (· ≤ name) = [] := by
        rw [List.filter_eq_nil_iff]
        intro other mem le
        exact String.not_lt.mpr (of_decide_eq_true le) (before other mem)
      refine ⟨(name, f), List.mem_cons_self, fault, value, ?_, ?_⟩
      · exact List.forall_mem_cons.mpr
          ⟨fun _ => String.le_refl _, fun q mem _ => Std.le_of_lt (behind q mem)⟩
      · simp [callAll, value, only]
    | ok v =>
      have later : ∃ p ∈ fs, ∃ fault, p.2 input = .error fault := by
        simpa [value] using failing
      obtain ⟨p, mem, fault, failed, least, called⟩ := ih ascending later (done.insert name v)
      refine ⟨p, List.mem_cons_of_mem _ mem, fault, failed, ?_, ?_⟩
      · refine List.forall_mem_cons.mpr ⟨?_, least⟩
        rintro ⟨fault', error⟩
        cases value.symm.trans error
      · have kept : decide (name ≤ p.1) = true := decide_eq_true (Std.le_of_lt (behind p mem))
        simp [callAll, value, called, kept]

theorem called_of_isOk (h : (callAll input done fs).result = .ok results) :
    (callAll input done fs).called = fs.map (·.1) := by
  induction fs generalizing done with
  | nil => rfl
  | cons p fs ih =>
    obtain ⟨name, f⟩ := p
    unfold callAll at h ⊢
    split at h
    · cases h
    · next v value =>
      rw [List.map_cons, ← ih h]

theorem get?_of_callAll (nodup : (fs.map (·.1)).Nodup)
    (h : (callAll input done fs).result = .ok results) :
    (∀ p ∈ fs, ∃ v, p.2 input = .ok v ∧ results.get? p.1 = some v) ∧
      ∀ k ∉ fs.map (·.1), results.get? k = done.get? k := by
  induction fs generalizing done with
  | nil =>
    cases h
    exact ⟨nofun, fun _ _ => rfl⟩
  | cons p fs ih =>
    obtain ⟨name, f⟩ := p
    rw [List.map_cons, List.nodup_cons] at nodup
    unfold callAll at h
    split at h
    · cases h
    · next v value =>
      obtain ⟨values, others⟩ := ih nodup.2 h
      refine ⟨List.forall_mem_cons.mpr ⟨⟨v, value, ?_⟩, values⟩, fun k out => ?_⟩
      · rw [others name nodup.1, Dict.get?_insert, if_pos rfl]
      · rw [List.map_cons, List.mem_cons, not_or] at out
        rw [others k out.2, Dict.get?_insert, if_neg (Ne.symm out.1)]

theorem callAll_congr_called {fs' : List (String × OutputFn)}
    (names : fs.map (·.1) = fs'.map (·.1))
    (agree : ∀ p ∈ fs, ∀ p' ∈ fs', p.1 = p'.1 → p.1 ∈ (callAll input done fs).called →
      p.2 input = p'.2 input) : callAll input done fs' = callAll input done fs := by
  induction fs generalizing done fs' with
  | nil =>
    obtain rfl := List.map_eq_nil_iff.mp names.symm
    rfl
  | cons p fs ih =>
    obtain ⟨name, f⟩ := p
    obtain ⟨⟨name', f'⟩, fs', rfl, here, rest⟩ := List.map_eq_cons_iff.mp names.symm
    obtain rfl : name = name' := here.symm
    have same : f input = f' input := by
      refine agree (name, f) List.mem_cons_self (name, f') List.mem_cons_self rfl ?_
      rw [callAll]
      split <;> exact List.mem_cons_self
    rw [callAll, callAll, ← same]
    cases value : f input with
    | error fault => rfl
    | ok v =>
      have others : callAll input (done.insert name v) fs' =
          callAll input (done.insert name v) fs := by
        refine ih rest.symm fun p mem p' mem' eq called => ?_
        refine agree p (List.mem_cons_of_mem _ mem) p' (List.mem_cons_of_mem _ mem') eq ?_
        rw [callAll, value]
        exact List.mem_cons_of_mem _ called
      simp only [others]

/-! ## Attempts -/

variable {e : Engine} {name : String}

theorem answer?_eq (e : Engine) (name : String) :
    e.answer? name = (e.module.output? name).map fun f => f e.effectiveInput := rfl

theorem answer?_eq_none_iff : e.answer? name = none ↔ e.module.output? name = none :=
  Option.map_eq_none_iff

theorem answer?_of_resolved (resolved : resolveAll e.module e.outputSpec.keys = .ok fs)
    {p : String × OutputFn} (mem : p ∈ fs) : e.answer? p.1 = some (p.2 e.effectiveInput) := by
  rw [answer?_eq, (resolveAll_ok resolved).2 p mem]
  rfl

theorem attempt_of_missing (missing : ∃ name ∈ e.outputSpec.keys, e.answer? name = none) :
    ∃ name, Least e.outputSpec.keys (fun name => e.answer? name = none) name ∧
      e.attempt = ⟨[], .error (.outputNotFound name)⟩ := by
  simp only [answer?_eq_none_iff] at missing ⊢
  obtain ⟨name, least, error⟩ := resolveAll_of_missing e.outputSpec.pairwise_keys missing
  exact ⟨name, least, by rw [attempt, error]⟩

theorem attempt_of_found (found : ∀ name ∈ e.outputSpec.keys, e.answer? name ≠ none) :
    ∃ fs, resolveAll e.module e.outputSpec.keys = .ok fs ∧ e.outputSpec.keys = fs.map (·.1) ∧
      e.attempt = callAll e.effectiveInput .empty fs := by
  obtain ⟨fs, resolved⟩ := exists_of_resolveAll (m := e.module) fun name mem missing =>
    found name mem (answer?_eq_none_iff.mpr missing)
  exact ⟨fs, resolved, (resolveAll_ok resolved).1, by rw [attempt, resolved]⟩

theorem attempt_of_failing (found : ∀ name ∈ e.outputSpec.keys, e.answer? name ≠ none)
    (failing : ∃ name ∈ e.outputSpec.keys, ∃ fault, e.answer? name = some (.error fault)) :
    ∃ name fault,
      Least e.outputSpec.keys (fun name => ∃ fault, e.answer? name = some (.error fault)) name ∧
      e.answer? name = some (.error fault) ∧
      e.attempt =
        ⟨e.outputSpec.keys.filter (· ≤ name), .error (.executionFailed name fault.cause)⟩ := by
  obtain ⟨fs, resolved, names, attempted⟩ := attempt_of_found found
  have ascending := e.outputSpec.pairwise_keys
  rw [names] at failing ascending ⊢
  have answers : ∀ p ∈ fs, ∀ fault,
      e.answer? p.1 = some (.error fault) ↔ p.2 e.effectiveInput = .error fault := by
    intro p mem fault
    rw [answer?_of_resolved resolved mem, Option.some.injEq]
  obtain ⟨p, mem, fault, failed, least, called⟩ := callAll_of_failing ascending (by
    obtain ⟨_, listed, fault, failed⟩ := failing
    obtain ⟨p, mem, rfl⟩ := List.mem_map.mp listed
    exact ⟨p, mem, fault, (answers p mem fault).mp failed⟩) .empty
  refine ⟨p.1, fault, ⟨List.mem_map_of_mem mem, ⟨fault, (answers p mem fault).mpr failed⟩, ?_⟩,
    (answers p mem fault).mpr failed, attempted.trans called⟩
  rintro _ listed ⟨fault', failed'⟩
  obtain ⟨q, mem', rfl⟩ := List.mem_map.mp listed
  exact least q mem' ⟨fault', (answers q mem' fault').mp failed'⟩

/-- **The outputs of a step** are what the functions answer. -/
theorem get?_of_attempt (h : e.attempt.result = .ok results) (k : String) :
    (k ∈ e.outputSpec.keys → ∃ v, e.answer? k = some (.ok v) ∧ results.get? k = some v) ∧
      (k ∉ e.outputSpec.keys → results.get? k = none) := by
  unfold attempt at h
  split at h
  · cases h
  · next fs resolved =>
    have names := (resolveAll_ok resolved).1
    have nodup : (fs.map (·.1)).Nodup := by
      rw [← names]
      exact e.outputSpec.nodup_keys
    obtain ⟨values, others⟩ := get?_of_callAll nodup h
    rw [names]
    refine ⟨fun listed => ?_, others k⟩
    obtain ⟨p, mem, rfl⟩ := List.mem_map.mp listed
    obtain ⟨v, value, shown⟩ := values p mem
    exact ⟨v, by rw [answer?_of_resolved resolved mem, value], shown⟩

theorem get?_stepOutputs {k : String} (ne : k ≠ stepField) :
    (e.stepOutputs results).get? k = results.get? k := by
  rw [stepOutputs, Dict.get?_insert, if_neg ne.symm]

theorem attempt_of_giving
    (giving : ∀ name ∈ e.outputSpec.keys, ∃ v, e.answer? name = some (.ok v)) :
    ∃ results, e.attempt = ⟨e.outputSpec.keys, .ok results⟩ := by
  obtain ⟨fs, resolved, names, attempted⟩ := attempt_of_found (e := e) fun name mem missing => by
    obtain ⟨v, value⟩ := giving name mem
    cases missing.symm.trans value
  have values : (callAll e.effectiveInput .empty fs).result.isOk = true := by
    rw [isOk_callAll, List.all_eq_true]
    intro p mem
    obtain ⟨v, value⟩ := giving p.1 (names ▸ List.mem_map_of_mem mem)
    rw [answer?_of_resolved resolved mem, Option.some.injEq] at value
    rw [value]
    rfl
  cases result : (callAll e.effectiveInput .empty fs).result with
  | error fault =>
    rw [result] at values
    cases values
  | ok results =>
    refine ⟨results, ?_⟩
    rw [attempted, names, ← called_of_isOk result, ← result]

/-- **Functions that are not called make no difference**, and those that are called make one by
their answers to the effective input only. -/
theorem attempt_congr_called {m' : Module}
    (found : ∀ name ∈ e.outputSpec.keys,
      (m'.output? name).isSome = (e.module.output? name).isSome)
    (agree : ∀ name ∈ e.attempt.called,
      ({ e with module := m' } : Engine).answer? name = e.answer? name) :
    ({ e with module := m' } : Engine).attempt = e.attempt := by
  have lacking : ∀ name ∈ e.outputSpec.keys,
      ({ e with module := m' } : Engine).answer? name = none ↔ e.answer? name = none := by
    intro name mem
    rw [answer?_eq_none_iff, answer?_eq_none_iff, ← Option.not_isSome_iff_eq_none,
      ← Option.not_isSome_iff_eq_none, found name mem]
  by_cases missing : ∃ name ∈ e.outputSpec.keys, e.answer? name = none
  · obtain ⟨name, least, attempted⟩ := attempt_of_missing missing
    obtain ⟨name', least', attempted'⟩ := attempt_of_missing (e := { e with module := m' })
      ⟨name, least.mem, (lacking name least.mem).mpr least.holds⟩
    obtain rfl := least.unique least' fun other mem => (lacking other mem).symm
    rw [attempted, attempted']
  · have present : ∀ name ∈ e.outputSpec.keys, e.answer? name ≠ none := fun name mem none =>
      missing ⟨name, mem, none⟩
    obtain ⟨fs, resolved, names, attempted⟩ := attempt_of_found present
    obtain ⟨fs', resolved', names', attempted'⟩ :=
      attempt_of_found (e := { e with module := m' }) fun name mem none =>
        present name mem ((lacking name mem).mp none)
    rw [attempted] at agree
    rw [attempted, attempted']
    refine callAll_congr_called (names.symm.trans names') fun p mem p' mem' eq called => ?_
    have same := agree p.1 called
    rw [answer?_of_resolved resolved mem, eq, answer?_of_resolved resolved' mem'] at same
    exact (Option.some.inj same).symm

/-- **The calls of a step and its report.** If declared outputs have no function, no function is
called and the least of their names is reported. Otherwise functions are called by ascending name
up to the first one that fails or panics, and the step reports its name and cause. Otherwise all are
called, and every declared output but `step`, which is the number of the step, is what its function
answers. The functions that are called, each of them once, make a difference by their answers to the
effective input only, and the others make none. -/
theorem attempt_reports (e : Engine) :
    let names := e.outputSpec.keys
    let lacks name := e.answer? name = none
    let breaks name := ∃ fault, e.answer? name = some (.error fault)
    ((∃ name ∈ names, lacks name) → ∃ name, Least names lacks name ∧
      e.attempt = ⟨[], .error (.outputNotFound name)⟩ ∧
      e.step =
        { e with error := some ("Output '" ++ name ++ "' not found in compiled module") }) ∧
    ((∀ name ∈ names, ¬ lacks name) → (∃ name ∈ names, breaks name) →
      ∃ name fault cause, Least names breaks name ∧
        e.answer? name = some (.error fault) ∧ fault.Told cause ∧
        e.attempt = ⟨names.filter (· ≤ name), .error (.executionFailed name cause)⟩ ∧
        e.step =
          { e with error := some ("Execution failed for '" ++ name ++ "': " ++ cause) }) ∧
    ((∀ name ∈ names, ¬ lacks name) → (∀ name ∈ names, ¬ breaks name) →
      e.attempt.called = names ∧ e.step.error = none ∧ e.step.stepCount = e.stepCount + 1 ∧
      ∃ outputs, e.step.outputs = some outputs ∧
        outputs.get? stepField = some (.nat (e.stepCount + 1)) ∧
        ∀ name ∈ names, name ≠ stepField →
          ∃ v, e.answer? name = some (.ok v) ∧ outputs.get? name = some v) ∧
    names.Pairwise (· < ·) ∧
    ∀ m' : Module,
      (∀ name ∈ names, (m'.output? name).isSome = (e.module.output? name).isSome) →
      (∀ name ∈ e.attempt.called,
        ({ e with module := m' } : Engine).answer? name = e.answer? name) →
      ({ e with module := m' } : Engine).attempt = e.attempt := by
  intro names lacks breaks
  refine ⟨fun missing => ?_, fun found failing => ?_, fun found unbroken => ?_,
    e.outputSpec.pairwise_keys, fun m' => attempt_congr_called⟩
  · obtain ⟨name, least, attempted⟩ := attempt_of_missing missing
    exact ⟨name, least, attempted, step_error (congrArg Attempt.result attempted)⟩
  · obtain ⟨name, fault, least, failed, attempted⟩ := attempt_of_failing found failing
    exact ⟨name, fault, fault.cause, least, failed, fault.told_cause, attempted,
      step_error (congrArg Attempt.result attempted)⟩
  · have giving : ∀ name ∈ names, ∃ v, e.answer? name = some (.ok v) := by
      intro name mem
      cases answer : e.answer? name with
      | none => exact absurd answer (found name mem)
      | some answered =>
        cases answered with
        | error fault => exact absurd ⟨fault, answer⟩ (unbroken name mem)
        | ok v => exact ⟨v, rfl⟩
    obtain ⟨results, attempted⟩ := attempt_of_giving giving
    have succeeded : e.attempt.result = .ok results := congrArg Attempt.result attempted
    refine ⟨congrArg Attempt.called attempted, ?_⟩
    rw [step_ok succeeded]
    refine ⟨rfl, rfl, _, rfl, e.stepOutputs_step results, fun name mem ne => ?_⟩
    obtain ⟨v, answer, shown⟩ := (get?_of_attempt succeeded name).1 mem
    exact ⟨v, answer, (get?_stepOutputs ne).trans shown⟩

/-- A module of four functions, two of which fail; one of them panics. -/
def brittle : Module :=
  .ofExports "mem://brittle" [("_a", fun _ => .ok .null), ("_b", fun _ => .error (.panicked none)),
    ("_c", fun _ => .error (.failed "no")), ("_d", fun _ => .ok .null)]

/-- Of two outputs that fail, the first is reported, and the functions behind it are not called. -/
theorem attempt_reports_firstOfTwo :
    let e := create brittle ⟨[("a", {}), ("b", {}), ("c", {}), ("d", {})], by decide⟩ .single .empty
    (∀ name ∈ e.outputSpec.keys, e.answer? name ≠ none) ∧
    e.answer? "c" = some (.error (.failed "no")) ∧
    e.attempt.called = ["a", "b"] ∧
    ∃ name fault cause,
      Least e.outputSpec.keys (fun name => ∃ fault, e.answer? name = some (.error fault)) name ∧
      e.answer? name = some (.error fault) ∧ fault.Told cause ∧
      e.attempt =
        ⟨e.outputSpec.keys.filter (· ≤ name), .error (.executionFailed name cause)⟩ ∧
      e.step = { e with error := some ("Execution failed for '" ++ name ++ "': " ++ cause) } := by
  intro e
  have found : ∀ name ∈ e.outputSpec.keys, e.answer? name ≠ none := by decide
  have failing : e.answer? "c" = some (.error (.failed "no")) := rfl
  obtain ⟨-, reports, -⟩ := attempt_reports e
  exact ⟨found, failing, by decide, reports found ⟨"c", by decide, _, failing⟩⟩

/-- A module whose one function repeats the field `value`, as the output `step`. -/
def ownStep : Module :=
  .ofExports "mem://step" [("_step", fun r => .ok ((r.get? "value").getD .null))]

/-- What the function of the output `step` answers is not shown: the number of the step takes its
place. -/
theorem answer_replaced_of_ownStep :
    let e := create ownStep ⟨[("step", {})], by decide⟩ .single ⟨[("value", .nat 41)], by decide⟩
    (∀ name ∈ e.outputSpec.keys, ∃ v, e.answer? name = some (.ok v)) ∧
    ¬ (e.step.error = none ∧ ∃ outputs, e.step.outputs = some outputs ∧
      ∀ name ∈ e.outputSpec.keys,
        ∃ v, e.answer? name = some (.ok v) ∧ outputs.get? name = some v) := by
  intro e
  have answer : e.answer? "step" = some (.ok (.nat 41)) := rfl
  refine ⟨List.forall_mem_singleton.mpr ⟨_, answer⟩, ?_⟩
  rintro ⟨-, outputs, shown, each⟩
  obtain ⟨v, value, output⟩ := each "step" List.mem_cons_self
  have number : outputs.get? "step" = some (.nat 1) := by
    cases shown
    rfl
  cases answer.symm.trans value
  cases number.symm.trans output

end Engine

end Cadence
