import Cadence.Feedback.Apply

/-!
# Paths as lenses

A path reads and writes one segment after the other, and at each segment the child that it names.
What holds of the children of one value then holds of paths.

* `Json.child?`, `Json.setChild`: the child that a segment names, and its replacement;
* `Json.lookup?_cons`, `Json.assign_cons`: paths go from child to child;
* `Json.Behind`, `Json.Overreaches`: an index behind the end of an array, where nothing is written;
* `Json.lookup?_assign`, `Json.assign_of_lookup?`, `Json.assign_assign`: the laws of values;
* **`Record.assign_lens`**: the laws of records.
-/

namespace Cadence

namespace Entries

variable {α : Type} {es : Entries α} {k : String}

theorem contains_of_get? {v : α} (found : es.get? k = some v) : es.contains k = true := by
  cases here : es.contains k with
  | true => rfl
  | false =>
    rw [get?_eq_none_iff.mpr here] at found
    cases found

theorem replace_of_get? {v : α} (found : es.get? k = some v) : es.replace k v = es := by
  induction es with
  | nil => rfl
  | cons e es ih =>
    obtain ⟨k', v'⟩ := e
    by_cases here : k' = k
    · obtain rfl : v' = v := by simpa [get?, here] using found
      simp [replace, here]
    · have rest : get? k es = some v := by simpa [get?, here] using found
      simp [replace, here, ih rest]

theorem insert_of_get? {v : α} (found : es.get? k = some v) : es.insert k v = es := by
  unfold insert
  rw [contains_of_get? found, if_pos rfl]
  exact replace_of_get? found

theorem replace_replace (v w : α) : (es.replace k v).replace k w = es.replace k w := by
  induction es with
  | nil => rfl
  | cons e es ih =>
    obtain ⟨k', v'⟩ := e
    by_cases here : k' = k <;> simp [replace, here, ih]

theorem replace_place (v w : α) (absent : es.contains k = false) :
    (es.place k v).replace k w = es.place k w := by
  induction es with
  | nil => simp [place, replace]
  | cons e es ih =>
    obtain ⟨k', v'⟩ := e
    simp only [contains, Bool.or_eq_false_iff, decide_eq_false_iff_not] at absent
    by_cases before : k < k' <;> simp [place, replace, before, absent.1, ih absent.2]

theorem insert_insert (v w : α) : (es.insert k v).insert k w = es.insert k w := by
  have present : (es.insert k v).contains k = true :=
    contains_iff.mpr (mem_keys_insert.mpr (.inl rfl))
  rw [insert, present, if_pos rfl]
  unfold insert
  cases here : es.contains k with
  | true => exact replace_replace v w
  | false => exact replace_place v w here

end Entries

namespace Json

/-! ## Children -/

/-- The child that a segment names. -/
def child? (v : Json) (s : String) : Option Json :=
  match v with
  | .obj fields => Entries.get? s fields
  | .arr items => (Path.index? s).bind (items[·]?)
  | _ => none

/-- Put a value in the place of the child that a segment names. -/
def setChild (v : Json) (s : String) (c : Json) : Json :=
  match v with
  | .obj fields => .obj (Entries.insert s c fields)
  | .arr items =>
    match Path.index? s with
    | none => .obj [(s, c)]
    | some i =>
      if i < items.length then .arr (items.set i c)
      else if i = items.length then .arr (items ++ [c])
      else .arr items
  | _ => .obj [(s, c)]

/-- The segment is an index behind the end of an array, and not the one at which it grows. -/
def Behind (v : Json) (s : String) : Prop :=
  ∃ items i, v = .arr items ∧ Path.index? s = some i ∧ items.length < i

variable {v c : Json} {s : String}

theorem lookup?_cons (s : String) (ss : List String) (v : Json) :
    lookup? (s :: ss) v = (v.child? s).bind (lookup? ss) := by
  cases v with
  | null | bool | int | float | str => rfl
  | arr items => exact (Option.bind_assoc _ _ _).symm
  | obj fields => rfl

theorem assign_cons (w : Json) (s : String) (ss : List String) (v : Json) :
    assign w (s :: ss) v = v.setChild s (assign w ss ((v.child? s).getD .null)) := by
  cases v with
  | null | bool | int | float | str => rfl
  | obj fields => rfl
  | arr items =>
    cases index : Path.index? s with
    | none => simp [assign, setChild, child?, index]
    | some i =>
      by_cases within : i < items.length
      · simp [assign, setChild, child?, index, within]
      · by_cases last : i = items.length <;> simp [assign, setChild, child?, index, within, last]

theorem child?_setChild (reach : ¬ v.Behind s) : (v.setChild s c).child? s = some c := by
  cases v with
  | null | bool | int | float | str => simp [setChild, child?, Entries.get?]
  | obj fields => simp [setChild, child?, Entries.get?_insert]
  | arr items =>
    unfold setChild
    cases index : Path.index? s with
    | none => simp [child?, Entries.get?]
    | some i =>
      have le : i ≤ items.length := Nat.le_of_not_lt fun lt => reach ⟨items, i, rfl, index, lt⟩
      by_cases within : i < items.length
      · simp [child?, index, within]
      · have last : i = items.length := by omega
        simp [child?, index, last]

/-- Nothing is behind the end of an array, and nothing is put there. -/
theorem Behind.ignored (h : v.Behind s) : v.child? s = none ∧ v.setChild s c = v := by
  obtain ⟨items, i, rfl, index, lt⟩ := h
  have above : ¬ i < items.length := Nat.not_lt_of_lt lt
  have ne : ¬ i = items.length := Nat.ne_of_gt lt
  simp [child?, setChild, index, above, ne]

theorem setChild_of_child? (found : v.child? s = some c) : v.setChild s c = v := by
  cases v with
  | null | bool | int | float | str => cases found
  | obj fields => exact congrArg Json.obj (Entries.insert_of_get? found)
  | arr items =>
    obtain ⟨i, index, item⟩ := Option.bind_eq_some_iff.mp found
    obtain ⟨within, eq⟩ := List.getElem?_eq_some_iff.mp item
    simp [setChild, index, within, ← eq]

theorem setChild_setChild (v : Json) (s : String) (c d : Json) :
    (v.setChild s c).setChild s d = v.setChild s d := by
  cases v with
  | null | bool | int | float | str =>
    simp [setChild, Entries.insert, Entries.contains, Entries.replace]
  | obj fields => exact congrArg Json.obj (Entries.insert_insert c d)
  | arr items =>
    unfold setChild
    cases index : Path.index? s with
    | none => simp [Entries.insert, Entries.contains, Entries.replace]
    | some i =>
      by_cases within : i < items.length
      · simp [within]
      · by_cases last : i = items.length <;> simp [within, last]

/-! ## Paths -/

/-- The path comes to an array with an index behind its end. -/
def Overreaches (v : Json) (p : List String) : Prop :=
  ∃ front s back, p = front ++ s :: back ∧ ∃ u, v.lookup? front = some u ∧ u.Behind s

theorem not_overreaches_nil (v : Json) : ¬ v.Overreaches [] := by
  rintro ⟨front, s, back, eq, -⟩
  exact List.append_ne_nil_of_right_ne_nil front (List.cons_ne_nil s back) eq.symm

theorem overreaches_cons {ss : List String} :
    v.Overreaches (s :: ss) ↔ v.Behind s ∨ ∃ u, v.child? s = some u ∧ u.Overreaches ss := by
  constructor
  · rintro ⟨front, t, back, eq, u, found, behind⟩
    cases front with
    | nil =>
      obtain ⟨rfl, rfl⟩ := List.cons.inj eq
      obtain rfl := Option.some.inj found
      exact .inl behind
    | cons s' front =>
      obtain ⟨rfl, rfl⟩ := List.cons.inj eq
      rw [lookup?_cons] at found
      obtain ⟨w, child, found⟩ := Option.bind_eq_some_iff.mp found
      exact .inr ⟨w, child, front, t, back, rfl, u, found, behind⟩
  · rintro (behind | ⟨w, child, front, t, back, rfl, u, found, behind⟩)
    · exact ⟨[], s, ss, rfl, v, rfl, behind⟩
    · refine ⟨s :: front, t, back, rfl, u, ?_, behind⟩
      rw [lookup?_cons, child]
      exact found

theorem not_overreaches_null (p : List String) : ¬ Json.null.Overreaches p := by
  cases p with
  | nil => exact not_overreaches_nil _
  | cons s ss =>
    rw [overreaches_cons]
    rintro (⟨_, _, eq, -⟩ | ⟨_, child, -⟩)
    · cases eq
    · cases child

/-- **What is written is read**, unless the path overreaches. -/
theorem lookup?_assign {p : List String} (w : Json) (reach : ¬ v.Overreaches p) :
    (assign w p v).lookup? p = some w := by
  induction p generalizing v with
  | nil => rfl
  | cons s ss ih =>
    rw [overreaches_cons, not_or] at reach
    rw [assign_cons, lookup?_cons, child?_setChild reach.1]
    refine ih ?_
    cases child : v.child? s with
    | none => exact not_overreaches_null ss
    | some u => exact fun beyond => reach.2 ⟨u, child, beyond⟩

/-- **A path that overreaches** leads nowhere and writes nothing. -/
theorem Overreaches.ignored {p : List String} (w : Json) (h : v.Overreaches p) :
    v.lookup? p = none ∧ assign w p v = v := by
  induction p generalizing v with
  | nil => exact absurd h (not_overreaches_nil v)
  | cons s ss ih =>
    rw [lookup?_cons, assign_cons]
    rcases overreaches_cons.mp h with behind | ⟨u, child, beyond⟩
    · have ignored := behind.ignored (c := assign w ss ((v.child? s).getD .null))
      rw [ignored.1]
      exact ⟨rfl, behind.ignored.2⟩
    · obtain ⟨missing, same⟩ := ih beyond
      rw [child, Option.bind_some, Option.getD_some, missing, same]
      exact ⟨rfl, setChild_of_child? child⟩

/-- **Writing what is read** changes nothing. -/
theorem assign_of_lookup? {p : List String} {u : Json} (found : v.lookup? p = some u) :
    assign u p v = v := by
  induction p generalizing v with
  | nil => exact (Option.some.inj found).symm
  | cons s ss ih =>
    rw [lookup?_cons] at found
    obtain ⟨w, child, found⟩ := Option.bind_eq_some_iff.mp found
    rw [assign_cons, child, Option.getD_some, ih found]
    exact setChild_of_child? child

/-- **The second of two writes** counts. -/
theorem assign_assign (p : List String) (u w v : Json) :
    assign w p (assign u p v) = assign w p v := by
  induction p generalizing v with
  | nil => rfl
  | cons s ss ih =>
    rw [assign_cons u, assign_cons w]
    by_cases behind : v.Behind s
    · rw [behind.ignored.2, assign_cons]
    · rw [child?_setChild behind, Option.getD_some, ih, setChild_setChild, assign_cons]

end Json

/-! ## Records -/

/-- The segments of a path, with the field of the record in front. -/
def Path.segments (p : Path) : List String := p.field :: p.below

namespace Record

variable (r : Record) (p : Path)

/-- The path comes to an array of the record with an index behind its end. -/
def Overreaches : Prop := (Json.ofRecord r).Overreaches p.segments

theorem lookup?_eq : r.lookup? p = (Json.ofRecord r).lookup? p.segments := rfl

theorem ofRecord_assign (w : Json) :
    Json.ofRecord (r.assign p w) = Json.assign w p.segments (Json.ofRecord r) := rfl

theorem ofRecord_injective : Function.Injective Json.ofRecord := by
  rintro ⟨es, _⟩ ⟨es', _⟩ eq
  obtain rfl : es = es' := Json.obj.inj eq
  rfl

/-- **Paths are lenses.** What is written at a path is read there, unless the path comes to an array
of the record with an index behind its end; then the record stays as it is. Writing what is read
changes nothing, and so a mapping from a path to the same path of the same record is the identity.
Of two writes at one path the second counts. -/
theorem assign_lens (r : Record) (p : Path) (v w : Json) :
    (¬ r.Overreaches p → (r.assign p v).lookup? p = some v) ∧
      (r.Overreaches p → r.lookup? p = none ∧ r.assign p v = r) ∧
      (∀ u, r.lookup? p = some u → r.assign p u = r) ∧
      (∀ text, (FeedbackMapping.mk text text).apply r r = r) ∧
      (r.assign p v).assign p w = r.assign p w := by
  have getPut (p : Path) (u : Json) (found : r.lookup? p = some u) : r.assign p u = r :=
    ofRecord_injective (Json.assign_of_lookup? ((r.lookup?_eq p).symm.trans found))
  refine ⟨fun reach => Json.lookup?_assign v reach, fun beyond => ?_, getPut p, fun text => ?_, ?_⟩
  · obtain ⟨missing, same⟩ := Json.Overreaches.ignored v beyond
    exact ⟨missing, ofRecord_injective same⟩
  · unfold FeedbackMapping.apply
    split
    · next u found => exact getPut _ u found
    · rfl
  · exact ofRecord_injective (Json.assign_assign p.segments v w (Json.ofRecord r))

end Record

end Cadence
