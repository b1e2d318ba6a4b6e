import Cadence.Feedback.Path

/-!
# The shape of values

What is within a value, and how deep.

* `Json.Every`: a property of a value and of all values within it;
* `Json.WellFormed`, `Record.WellFormed`: integers are words, and keys ascend;
* `Json.nesting`: the number of arrays and objects that are nested;
* **`Json.WellFormed.assign`**, **`Json.WellFormed.lookup?`**: reading and writing at a path.
-/

namespace Cadence

namespace Json

theorem inductionOn {motive : Json → Prop} (v : Json) (null : motive .null)
    (bool : ∀ b, motive (.bool b)) (int : ∀ n, motive (.int n)) (float : ∀ x, motive (.float x))
    (str : ∀ s, motive (.str s))
    (arr : ∀ items, (∀ v ∈ items, motive v) → motive (.arr items))
    (obj : ∀ fields, (∀ f ∈ fields, motive f.2) → motive (.obj fields)) : motive v :=
  @Json.rec motive (fun vs => ∀ v ∈ vs, motive v) (fun fs => ∀ f ∈ fs, motive f.2)
    (fun f => motive f.2) null bool int float str arr obj nofun
    (fun _ _ first others => List.forall_mem_cons.mpr ⟨first, others⟩) nofun
    (fun _ _ first others => List.forall_mem_cons.mpr ⟨first, others⟩) (fun _ _ value => value) v

mutual

/-- A property of a value and of all values within it. -/
def Every (P : Json → Prop) : Json → Prop
  | .arr items => P (.arr items) ∧ EveryItems P items
  | .obj fields => P (.obj fields) ∧ EveryFields P fields
  | v => P v

/-- All items have the property throughout. -/
def EveryItems (P : Json → Prop) : List Json → Prop
  | [] => True
  | v :: vs => v.Every P ∧ EveryItems P vs

/-- The values of all fields have the property throughout. -/
def EveryFields (P : Json → Prop) : List (String × Json) → Prop
  | [] => True
  | (_, v) :: fs => v.Every P ∧ EveryFields P fs

end

variable {P Q R : Json → Prop}

theorem everyItems_iff {vs : List Json} : EveryItems P vs ↔ ∀ v ∈ vs, v.Every P := by
  induction vs with
  | nil => simp [EveryItems]
  | cons v vs ih => simp [EveryItems, ih]

theorem everyFields_iff {fs : List (String × Json)} :
    EveryFields P fs ↔ ∀ f ∈ fs, f.2.Every P := by
  induction fs with
  | nil => simp [EveryFields]
  | cons f fs ih => simp [EveryFields, ih]

theorem Every.imp₂ {v : Json} (p : v.Every P) (q : v.Every Q) (h : ∀ u, P u → Q u → R u) :
    v.Every R := by
  induction v using inductionOn with
  | null | bool | int | float | str => exact h _ p q
  | arr items ih =>
    refine ⟨h _ p.1 q.1, everyItems_iff.mpr fun v mem => ?_⟩
    exact ih v mem (everyItems_iff.mp p.2 v mem) (everyItems_iff.mp q.2 v mem)
  | obj fields ih =>
    refine ⟨h _ p.1 q.1, everyFields_iff.mpr fun f mem => ?_⟩
    exact ih f mem (everyFields_iff.mp p.2 f mem) (everyFields_iff.mp q.2 f mem)

/-! ## Nesting -/

mutual

/-- The number of arrays and objects that are nested in a value. -/
def nesting : Json → Nat
  | .arr items => nestingItems items + 1
  | .obj fields => nestingFields fields + 1
  | _ => 0

/-- The deepest nesting among items. -/
def nestingItems : List Json → Nat
  | [] => 0
  | v :: vs => max v.nesting (nestingItems vs)

/-- The deepest nesting among the values of fields. -/
def nestingFields : List (String × Json) → Nat
  | [] => 0
  | (_, v) :: fs => max v.nesting (nestingFields fs)

end

/-! ## Well-formed values -/

/-- An integer is a word. -/
def InWord : Json → Prop
  | .int n => -(Word.leastSigned : Int) ≤ n ∧ n ≤ Word.largest
  | _ => True

/-- The keys of an object ascend. -/
def Ordered : Json → Prop
  | .obj fields => Entries.Ascending fields
  | _ => True

/-- All integers in a value are words, and the keys of all objects ascend. -/
def WellFormed (v : Json) : Prop := v.Every fun u => u.InWord ∧ u.Ordered

theorem WellFormed.words {v : Json} (h : v.WellFormed) : v.Every InWord :=
  h.imp₂ h fun _ fits _ => fits.1

theorem wellFormed_null : Json.null.WellFormed := ⟨trivial, trivial⟩

theorem wellFormed_arr {items : List Json} :
    (Json.arr items).WellFormed ↔ ∀ v ∈ items, v.WellFormed :=
  (and_iff_right ⟨trivial, trivial⟩).trans everyItems_iff

theorem wellFormed_obj {fields : List (String × Json)} :
    (Json.obj fields).WellFormed ↔ Entries.Ascending fields ∧ ∀ f ∈ fields, f.2.WellFormed :=
  and_congr (and_iff_right trivial) everyFields_iff

theorem inWord_nat {n : Nat} (small : n ≤ Word.largest) : (Json.nat n).InWord := by
  refine ⟨?_, Int.ofNat_le.mpr small⟩
  simp only [Word.leastSigned]
  omega

theorem wellFormed_nat {n : Nat} (small : n ≤ Word.largest) : (Json.nat n).WellFormed :=
  ⟨inWord_nat small, trivial⟩

end Json

namespace Entries

variable {α : Type} {es : Entries α} {k : String} {v : α}

theorem exists_mem_of_get? (found : es.get? k = some v) : ∃ e ∈ es, e.2 = v := by
  induction es with
  | nil => cases found
  | cons e es ih =>
    obtain ⟨k', v'⟩ := e
    by_cases here : k' = k
    · obtain rfl : v' = v := by simpa [get?, here] using found
      exact ⟨_, List.mem_cons_self, rfl⟩
    · obtain ⟨e, mem, eq⟩ := ih (by simpa [get?, here] using found)
      exact ⟨e, List.mem_cons_of_mem _ mem, eq⟩

theorem mem_replace {e : String × α} (mem : e ∈ es.replace k v) : e.2 = v ∨ e ∈ es := by
  induction es with
  | nil => cases mem
  | cons e' es ih =>
    obtain ⟨k', v'⟩ := e'
    by_cases here : k' = k
    · rw [replace, if_pos here] at mem
      rcases List.mem_cons.mp mem with rfl | old
      · exact .inl rfl
      · exact .inr (List.mem_cons_of_mem _ old)
    · rw [replace, if_neg here] at mem
      rcases List.mem_cons.mp mem with rfl | old
      · exact .inr List.mem_cons_self
      · exact (ih old).imp_right (List.mem_cons_of_mem _)

theorem mem_place {e : String × α} (mem : e ∈ es.place k v) : e.2 = v ∨ e ∈ es := by
  induction es with
  | nil =>
    obtain rfl := List.mem_singleton.mp mem
    exact .inl rfl
  | cons e' es ih =>
    obtain ⟨k', v'⟩ := e'
    by_cases before : k < k'
    · rw [place, if_pos before] at mem
      rcases List.mem_cons.mp mem with rfl | old
      · exact .inl rfl
      · exact .inr old
    · rw [place, if_neg before] at mem
      rcases List.mem_cons.mp mem with rfl | old
      · exact .inr List.mem_cons_self
      · exact (ih old).imp_right (List.mem_cons_of_mem _)

theorem mem_insert {e : String × α} (mem : e ∈ es.insert k v) : e.2 = v ∨ e ∈ es := by
  unfold insert at mem
  split at mem
  · exact mem_replace mem
  · exact mem_place mem

theorem mem_ofList {l : List (String × α)} {e : String × α} (mem : e ∈ ofList l) :
    ∃ e' ∈ l, e'.2 = e.2 := by
  have go (l : List (String × α)) (acc : Entries α)
      (mem : e ∈ l.foldl (fun acc e => acc.insert e.1 e.2) acc) :
      e ∈ acc ∨ ∃ e' ∈ l, e'.2 = e.2 := by
    induction l generalizing acc with
    | nil => exact .inl mem
    | cons a l ih =>
      rcases ih _ mem with old | ⟨e', mem', eq⟩
      · rcases mem_insert old with new | old
        · exact .inr ⟨a, List.mem_cons_self, new.symm⟩
        · exact .inl old
      · exact .inr ⟨e', List.mem_cons_of_mem _ mem', eq⟩
  exact (go l [] mem).resolve_left List.not_mem_nil

end Entries

/-! ## Paths -/

namespace Json

theorem wellFormed_insert {fields : Entries Json} {w : Json} (ascending : fields.Ascending)
    (old : ∀ f ∈ fields, f.2.WellFormed) (new : w.WellFormed) (k : String) :
    (Json.obj (fields.insert k w)).WellFormed := by
  refine wellFormed_obj.mpr ⟨ascending.insert w, ?_⟩
  intro f mem
  rcases Entries.mem_insert mem with eq | mem
  · rw [eq]
    exact new
  · exact old f mem

theorem wellFormed_single {w : Json} (new : w.WellFormed) (k : String) :
    (Json.obj [(k, w)]).WellFormed := by
  refine wellFormed_obj.mpr ⟨List.pairwise_singleton _ _, ?_⟩
  intro f mem
  obtain rfl := List.mem_singleton.mp mem
  exact new

/-- What is found below a well-formed value is well-formed. -/
theorem WellFormed.lookup? {v u : Json} (h : v.WellFormed) {segments : List String}
    (found : v.lookup? segments = some u) : u.WellFormed := by
  induction segments generalizing v with
  | nil =>
    obtain rfl := Option.some.inj found
    exact h
  | cons s ss ih =>
    cases v with
    | null | bool | int | float | str => cases found
    | arr items =>
      obtain ⟨i, -, found⟩ := Option.bind_eq_some_iff.mp found
      obtain ⟨w, item, found⟩ := Option.bind_eq_some_iff.mp found
      exact ih (wellFormed_arr.mp h w (List.mem_of_getElem? item)) found
    | obj fields =>
      obtain ⟨w, field, found⟩ := Option.bind_eq_some_iff.mp found
      obtain ⟨f, mem, rfl⟩ := Entries.exists_mem_of_get? field
      exact ih ((wellFormed_obj.mp h).2 f mem) found

/-- A well-formed value written below another leaves it well-formed. -/
theorem WellFormed.assign {v w : Json} (h : v.WellFormed) (new : w.WellFormed)
    (segments : List String) : (Json.assign w segments v).WellFormed := by
  induction segments generalizing v with
  | nil => exact new
  | cons s ss ih =>
    have fresh : (Json.assign w ss .null).WellFormed := ih wellFormed_null
    cases v with
    | null | bool | int | float | str => exact wellFormed_single fresh s
    | arr items =>
      have old := wellFormed_arr.mp h
      unfold Json.assign
      split
      · exact wellFormed_single fresh s
      · split
        · next v item =>
          refine wellFormed_arr.mpr fun u mem => ?_
          rcases List.mem_or_eq_of_mem_set mem with mem | rfl
          · exact old u mem
          · exact ih (old v (List.mem_of_getElem? item))
        · split
          · refine wellFormed_arr.mpr fun u mem => ?_
            rcases List.mem_append.mp mem with mem | mem
            · exact old u mem
            · obtain rfl := List.mem_singleton.mp mem
              exact fresh
          · exact h
    | obj fields =>
      obtain ⟨ascending, old⟩ := wellFormed_obj.mp h
      refine wellFormed_insert ascending old (ih ?_) s
      cases found : Entries.get? s fields with
      | none => exact wellFormed_null
      | some u =>
        obtain ⟨f, mem, rfl⟩ := Entries.exists_mem_of_get? found
        exact old f mem

end Json

/-- All values in a record are well-formed. -/
def Record.WellFormed (r : Record) : Prop := (Json.ofRecord r).WellFormed

namespace Record

theorem wellFormed_iff {r : Record} : r.WellFormed ↔ ∀ f ∈ r.entries, f.2.WellFormed := by
  refine Json.wellFormed_obj.trans ?_
  exact and_iff_right r.ascending

theorem wellFormed_empty : WellFormed .empty := wellFormed_iff.mpr nofun

theorem WellFormed.get? {r : Record} (h : r.WellFormed) {k : String} {v : Json}
    (found : r.get? k = some v) : v.WellFormed := by
  obtain ⟨f, mem, rfl⟩ := Entries.exists_mem_of_get? found
  exact wellFormed_iff.mp h f mem

theorem WellFormed.insert {r : Record} (h : r.WellFormed) {v : Json} (new : v.WellFormed)
    (k : String) : WellFormed (r.insert k v) :=
  Json.wellFormed_insert r.ascending (wellFormed_iff.mp h) new k

theorem WellFormed.lookup? {r : Record} (h : r.WellFormed) {p : Path} {v : Json}
    (found : r.lookup? p = some v) : v.WellFormed := by
  obtain ⟨u, field, below⟩ := Option.bind_eq_some_iff.mp found
  exact (h.get? field).lookup? below

theorem WellFormed.assign {r : Record} (h : r.WellFormed) {v : Json} (new : v.WellFormed)
    (p : Path) : WellFormed (r.assign p v) := by
  refine h.insert (Json.WellFormed.assign ?_ new p.below) p.field
  cases found : r.get? p.field with
  | none => exact Json.wellFormed_null
  | some u => exact h.get? found

end Record

end Cadence
