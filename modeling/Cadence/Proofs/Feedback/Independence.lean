import Cadence.Feedback.Apply
import Mathlib.Data.List.Basic

/-!
# Mappings to different fields

A mapping reads the outputs and never the record that is being written, and it writes one field of
this record. So the mappings to a field alone decide what becomes of it, and mappings to different
fields can be applied in any order.

* `FeedbackMapping.destination`, `FeedbackMapping.value?`: the field that a mapping writes, and the
  value that it copies;
* `FeedbackMapping.renew`: what it makes of the field;
* **`get?_feedback`**: a field is decided by the mappings to it, in their order;
* `feedback_eq_of_filter_eq`: lists with the same mappings to each field do the same;
* `mem_keys_feedback`: the keys that feedback adds;
* **`feedback_independent`**: lists in which no two mappings write the same field.
-/

namespace Cadence

/-! ## One mapping -/

namespace FeedbackMapping

/-- The field of the input that a mapping writes, or writes below: the text before the first dot. -/
def destination (m : FeedbackMapping) : String :=
  String.ofList (m.target.toList.takeWhile (· ≠ '.'))

/-- The value that a mapping copies, if it is there. -/
def value? (m : FeedbackMapping) (outputs : Record) : Option Json :=
  Record.lookup? outputs (.ofText m.source)

/-- What a mapping makes of its field, from the value that it copies and what the field was before.
Either may be missing. -/
def renew (m : FeedbackMapping) (value previous : Option Json) : Option Json :=
  match value with
  | some v => some (Json.assign v (Path.ofText m.target).below (previous.getD .null))
  | none => previous

variable {m : FeedbackMapping} {outputs : Record}

theorem field_ofText_target (m : FeedbackMapping) : (Path.ofText m.target).field = m.destination :=
  Path.field_ofText m.target

theorem apply_of_value {v : Json} (found : m.value? outputs = some v) (input : Record) :
    m.apply outputs input = Record.assign input (.ofText m.target) v := by
  unfold value? at found
  rw [apply, found]

theorem apply_of_missing (missing : m.value? outputs = none) (input : Record) :
    m.apply outputs input = input := by
  unfold value? at missing
  rw [apply, missing]

/-- **A mapping renews its own field**, and leaves the others. -/
theorem get?_apply (m : FeedbackMapping) (outputs input : Record) (k : String) :
    (m.apply outputs input).get? k =
      if m.destination = k then m.renew (m.value? outputs) (input.get? k) else input.get? k := by
  cases source : m.value? outputs with
  | none => rw [apply_of_missing source, renew, ite_self]
  | some v =>
    rw [apply_of_value source, Record.assign, Dict.get?_insert, field_ofText_target]
    refine if_ctx_congr Iff.rfl (fun here => ?_) fun _ => rfl
    rw [here, renew]

theorem mem_keys_apply {input : Record} {k : String} : k ∈ (m.apply outputs input).keys ↔
    k ∈ input.keys ∨ m.destination = k ∧ (m.value? outputs).isSome = true := by
  cases source : m.value? outputs with
  | none => simp [apply_of_missing source]
  | some v =>
    rw [apply_of_value source, Record.assign, Dict.mem_keys_insert, field_ofText_target, or_comm,
      eq_comm]
    simp

end FeedbackMapping

/-! ## Lists of mappings -/

variable {ms ms' : List FeedbackMapping} {outputs input : Record} {k : String}

theorem feedback_cons (m : FeedbackMapping) (ms : List FeedbackMapping) (outputs input : Record) :
    feedback (m :: ms) outputs input = feedback ms outputs (m.apply outputs input) := rfl

/-- **A field is decided by the mappings to it**, in their order. -/
theorem get?_feedback (ms : List FeedbackMapping) (outputs input : Record) (k : String) :
    (feedback ms outputs input).get? k =
      (ms.filter (·.destination = k)).foldl (fun v m => m.renew (m.value? outputs) v)
        (input.get? k) := by
  induction ms generalizing input with
  | nil => rfl
  | cons m ms ih =>
    rw [feedback_cons, ih, m.get?_apply]
    by_cases here : m.destination = k <;> simp [here]

theorem feedback_eq_of_filter_eq
    (same : ∀ k, ms'.filter (·.destination = k) = ms.filter (·.destination = k)) :
    feedback ms' outputs input = feedback ms outputs input := by
  refine Dict.ext_get? fun k => ?_
  rw [get?_feedback, get?_feedback, same]

theorem get?_feedback_of_missing
    (missing : ∀ m ∈ ms, m.destination = k → m.value? outputs = none) :
    (feedback ms outputs input).get? k = input.get? k := by
  rw [get?_feedback]
  refine (List.foldl_ext _ (fun v _ => v) _ fun v m mem => ?_).trans (List.foldl_fixed _)
  obtain ⟨mem, here⟩ := List.mem_filter.mp mem
  rw [missing m mem (of_decide_eq_true here)]
  rfl

theorem mem_keys_feedback : k ∈ (feedback ms outputs input).keys ↔
    k ∈ input.keys ∨ ∃ m ∈ ms, m.destination = k ∧ (m.value? outputs).isSome = true := by
  induction ms generalizing input with
  | nil => simp [feedback]
  | cons m ms ih => simp [feedback_cons, ih, FeedbackMapping.mem_keys_apply, or_assoc]

/-! ## Different fields -/

section Apart

variable (apart : ms.Pairwise fun m n => m.destination ≠ n.destination)
include apart

theorem FeedbackMapping.filter_of_apart {m : FeedbackMapping} (mem : m ∈ ms) :
    ms.filter (·.destination = m.destination) = [m] := by
  induction ms with
  | nil => cases mem
  | cons n ms ih =>
    obtain ⟨others, apart⟩ := List.pairwise_cons.mp apart
    rcases List.mem_cons.mp mem with rfl | mem
    · have empty : ms.filter (·.destination = m.destination) = [] :=
        List.filter_eq_nil_iff.mpr fun n mem => by simpa using (others n mem).symm
      rw [List.filter_cons_of_pos (by simp), empty]
    · rw [List.filter_cons_of_neg (by simpa using others m mem), ih apart mem]

theorem FeedbackMapping.filter_perm_of_apart (perm : ms'.Perm ms) (k : String) :
    ms'.filter (·.destination = k) = ms.filter (·.destination = k) := by
  have perm := perm.filter (·.destination = k)
  by_cases targeted : ∃ m ∈ ms, m.destination = k
  · obtain ⟨m, mem, rfl⟩ := targeted
    rw [filter_of_apart apart mem] at perm ⊢
    exact List.perm_singleton.mp perm
  · have empty : ms.filter (·.destination = k) = [] :=
      List.filter_eq_nil_iff.mpr fun m mem here => targeted ⟨m, mem, of_decide_eq_true here⟩
    rw [empty] at perm ⊢
    exact perm.eq_nil

end Apart

/-- **Mappings to different fields are independent.** If the targets of no two mappings begin with
the same field, then every permutation of the list gives the same record. The field of a mapping
comes from the value that this mapping copies and from what the field was before, and from nothing
else. A field to which no mapping has a value is as in the input, and it is missing if it was
missing there: the only new keys are the fields of mappings that have a value. -/
theorem feedback_independent {ms : List FeedbackMapping}
    (apart : ms.Pairwise fun m n => m.destination ≠ n.destination) (outputs input : Record) :
    (∀ ms', ms'.Perm ms → feedback ms' outputs input = feedback ms outputs input) ∧
      (∀ m ∈ ms, (feedback ms outputs input).get? m.destination =
        m.renew (m.value? outputs) (input.get? m.destination)) ∧
      (∀ k, (∀ m ∈ ms, m.destination = k → m.value? outputs = none) →
        (feedback ms outputs input).get? k = input.get? k) ∧
      ∀ k, k ∈ (feedback ms outputs input).keys ↔
        k ∈ input.keys ∨ ∃ m ∈ ms, m.destination = k ∧ (m.value? outputs).isSome = true := by
  refine ⟨fun ms' perm => ?_, fun m mem => ?_, fun k missing => ?_, fun k => mem_keys_feedback⟩
  · exact feedback_eq_of_filter_eq (FeedbackMapping.filter_perm_of_apart apart perm)
  · rw [get?_feedback, FeedbackMapping.filter_of_apart apart mem]
    rfl
  · exact get?_feedback_of_missing missing

/-- Outputs with a number, and a text one level down. -/
def numberAndNote : Record := Dict.ofList
  [("cell", .int 9), ("entry", .object [("note", .str "b")])]

/-- An input with a table, two lists and a name. -/
def tableAndLists : Record := Dict.ofList
  [("grid", .object [("rows", .arr [.arr [.int 0, .int 1], .arr [.int 1, .int 0]]),
      ("width", .int 2)]),
    ("log", .arr [.str "a"]), ("marks", .arr [.int 7]), ("name", .str "x")]

/-- A write at an index, one that appends, one behind the end of a list, one without a value and one
into a new field. -/
def fiveMappings : List FeedbackMapping :=
  [⟨"cell", "grid.rows.1.0"⟩, ⟨"entry.note", "log.1"⟩, ⟨"cell", "marks.5"⟩, ⟨"absent", "name"⟩,
    ⟨"cell", "fresh.deep.x"⟩]

/-- Five mappings in one order and in the reverse one. -/
theorem feedback_independent_fiveMappings :
    let next := feedback fiveMappings numberAndNote tableAndLists
    (fiveMappings.Pairwise fun m n => m.destination ≠ n.destination) ∧
      feedback fiveMappings.reverse numberAndNote tableAndLists = next ∧
      next.get? "grid" = some (.object
        [("rows", .arr [.arr [.int 0, .int 1], .arr [.int 9, .int 0]]), ("width", .int 2)]) ∧
      next.get? "log" = some (.arr [.str "a", .str "b"]) ∧
      next.get? "marks" = some (.arr [.int 7]) ∧ next.get? "name" = some (.str "x") ∧
      "fresh" ∈ next.keys ∧ "deep" ∉ next.keys := by
  intro next
  have apart : fiveMappings.Pairwise fun m n => m.destination ≠ n.destination := by decide +kernel
  obtain ⟨permuted, own, others, keys⟩ := feedback_independent apart numberAndNote tableAndLists
  refine ⟨apart, permuted _ (List.reverse_perm _), ?_, ?_, ?_, ?_, ?_, ?_⟩
  · exact (own ⟨"cell", "grid.rows.1.0"⟩ (by decide)).trans rfl
  · exact (own ⟨"entry.note", "log.1"⟩ (by decide)).trans rfl
  · exact (own ⟨"cell", "marks.5"⟩ (by decide)).trans rfl
  · exact (others "name" (by decide +kernel)).trans rfl
  · exact (keys "fresh").mpr (.inr ⟨⟨"cell", "fresh.deep.x"⟩, by decide, by decide +kernel⟩)
  · exact fun mem => absurd ((keys "deep").mp mem) (by decide +kernel)

end Cadence
