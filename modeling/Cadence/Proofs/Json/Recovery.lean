import Cadence.Proofs.Json.Reading
import Cadence.Proofs.Json.RoundTrip

/-!
# Payloads are read back

A decoder recovers a payload from a value if it reads the payload from the value's document, however
many levels are left. The decoders of structures are put together from those of their fields, and so
is what they recover: a field is written and read, or left out and filled in.

* `Decoder.Recovers`: a payload, and the value it is recovered from;
* `Decoder.Recovers.list`, `Decoder.Recovers.dict`, `Decoder.Recovers.orNull`: arrays, objects and
  missing payloads;
* `Fields.written`, `Fields.read_written`: the fields of a structure;
* **`Decoder.Recovers.run`**: the payload is read from the text of the value.
-/

namespace Cadence

/-! ## Nesting and printing -/

namespace Json

theorem nestingItems_le_iff {vs : List Json} {n : Nat} :
    nestingItems vs ≤ n ↔ ∀ v ∈ vs, v.nesting ≤ n := by
  induction vs with
  | nil => simp [nestingItems]
  | cons v vs ih => simp only [nestingItems, Nat.max_le, ih, List.forall_mem_cons]

theorem nestingFields_le_iff {fs : List (String × Json)} {n : Nat} :
    nestingFields fs ≤ n ↔ ∀ f ∈ fs, f.2.nesting ≤ n := by
  induction fs with
  | nil => simp [nestingFields]
  | cons f fs ih => simp only [nestingFields, Nat.max_le, ih, List.forall_mem_cons]

theorem nesting_arr_le_iff {vs : List Json} {n : Nat} :
    (Json.arr vs).nesting ≤ n + 1 ↔ ∀ v ∈ vs, v.nesting ≤ n :=
  Nat.succ_le_succ_iff.trans nestingItems_le_iff

theorem nesting_obj_le_iff {fs : List (String × Json)} {n : Nat} :
    (Json.obj fs).nesting ≤ n + 1 ↔ ∀ f ∈ fs, f.2.nesting ≤ n :=
  Nat.succ_le_succ_iff.trans nestingFields_le_iff

theorem printable_null : Json.null.Printable := ⟨trivial, trivial⟩

theorem printable_str (s : String) : (Json.str s).Printable := ⟨trivial, trivial⟩

theorem printable_bool (b : Bool) : (Json.bool b).Printable := ⟨trivial, trivial⟩

theorem printable_nat {n : Nat} (small : n ≤ Word.largest) : (Json.nat n).Printable :=
  ⟨inWord_nat small, trivial⟩

theorem printable_arr {items : List Json} :
    (Json.arr items).Printable ↔ ∀ v ∈ items, v.Printable :=
  (and_iff_right ⟨trivial, trivial⟩).trans everyItems_iff

theorem printable_obj {fields : List (String × Json)} :
    (Json.obj fields).Printable ↔ ∀ f ∈ fields, f.2.Printable :=
  (and_iff_right ⟨trivial, trivial⟩).trans everyFields_iff

end Json

namespace Document

theorem isSome_value?_ofJson {v : Json} {depth : Nat} (shallow : v.nesting ≤ depth) :
    (value? depth (ofJson v)).isSome = true := by
  induction v using Json.inductionOn generalizing depth with
  | null | bool | int | float | str => simp [ofJson, value?]
  | arr items ih =>
    obtain _ | depth := depth
    · cases shallow
    have each := Json.nesting_arr_le_iff.mp shallow
    have read : (values? depth (ofItems items)).isSome = true := by
      clear shallow
      induction items with
      | nil => rfl
      | cons v vs ihItems =>
        obtain ⟨first, others⟩ := List.forall_mem_cons.mp each
        obtain ⟨ihFirst, ihOthers⟩ := List.forall_mem_cons.mp ih
        obtain ⟨u, eq⟩ := Option.isSome_iff_exists.mp (ihFirst first)
        obtain ⟨us, eqs⟩ := Option.isSome_iff_exists.mp (ihItems ihOthers others)
        simp [ofItems, values?, eq, eqs]
    simpa [ofJson, value?] using read
  | obj fields ih =>
    obtain _ | depth := depth
    · cases shallow
    have each := Json.nesting_obj_le_iff.mp shallow
    have read : (entries? depth (ofFields fields)).isSome = true := by
      clear shallow
      induction fields with
      | nil => rfl
      | cons f fs ihFields =>
        obtain ⟨first, others⟩ := List.forall_mem_cons.mp each
        obtain ⟨ihFirst, ihOthers⟩ := List.forall_mem_cons.mp ih
        obtain ⟨u, eq⟩ := Option.isSome_iff_exists.mp (ihFirst first)
        obtain ⟨us, eqs⟩ := Option.isSome_iff_exists.mp (ihFields ihOthers others)
        simp [ofFields, entries?, eq, eqs]
    simpa [ofJson, value?] using read

theorem ofJson_ne_null {v : Json} (solid : v ≠ .null) : ofJson v ≠ .null := by
  cases v with
  | null => exact absurd rfl solid
  | bool | int | float | str | arr | obj => exact nofun

theorem mapM_ofFields {α : Type} {read : Document → Option α} {g : String × α → Json}
    {es : List (String × α)} (each : ∀ e ∈ es, read (ofJson (g e)) = some e.2) :
    ((ofFields (es.map fun e => (e.1, g e))).mapM fun (m : Option String × Document) => do
      let k ← m.1
      let v ← read m.2
      return (k, v)) = some es := by
  induction es with
  | nil => rfl
  | cons e es ih =>
    obtain ⟨first, others⟩ := List.forall_mem_cons.mp each
    rw [List.map_cons, ofFields, List.mapM_cons, ih others, first]
    rfl

end Document

/-! ## Decoders -/

namespace Decoder

variable {α : Type} {f : Decoder α} {v : Json} {a : α}

/-- The decoder recovers the payload from the value. -/
structure Recovers (f : Decoder α) (v : Json) (a : α) : Prop where
  printable : v.Printable
  read : ∀ {depth}, v.nesting ≤ depth → f depth (Document.ofJson v) = some a

/-- **A payload is read back from its text**, if it is not nested too deep. -/
theorem Recovers.run (h : f.Recovers v a) (shallow : v.nesting ≤ Document.maxDepth) :
    f.runText v.toText = some a := by
  unfold runText Decoder.run
  rw [Document.read?_toText h.printable]
  exact h.read shallow

theorem recovers_string (s : String) : string.Recovers (.str s) s :=
  ⟨Json.printable_str s, fun _ => rfl⟩

theorem recovers_bool (b : Bool) : bool.Recovers (.bool b) b :=
  ⟨Json.printable_bool b, fun _ => rfl⟩

theorem recovers_variant (s : String) : variant.Recovers (.str s) s :=
  ⟨Json.printable_str s, fun _ => rfl⟩

theorem recovers_unsigned {n max : Nat} (small : n ≤ max) (word : max ≤ Word.largest) :
    (unsigned max).Recovers (.nat n) n := by
  refine ⟨Json.printable_nat (Nat.le_trans small word), fun {depth} _ => ?_⟩
  have fits : (n : Int) ≤ max := Int.ofNat_le.mpr small
  simp [Json.nat, Document.ofJson, unsigned, fits]

/-- A payload that is a value other than null may be missing. -/
theorem Recovers.present (h : f.Recovers v a) (solid : v ≠ .null) :
    f.option.Recovers v (some a) := by
  refine ⟨h.printable, fun {depth} shallow => ?_⟩
  have read := h.read shallow
  have written := Document.ofJson_ne_null solid
  generalize Document.ofJson v = d at read written
  cases d with
  | null => exact absurd rfl written
  | bool | number | str | arr | obj =>
    show (f depth _).map Option.some = _
    rw [read]
    rfl

theorem Recovers.orNull {g : α → Json} {o : Option α} (h : ∀ a ∈ o, f.Recovers (g a) a)
    (solid : ∀ a ∈ o, g a ≠ .null) : f.option.Recovers (Json.orNull g o) o := by
  cases o with
  | none => exact ⟨Json.printable_null, fun _ => rfl⟩
  | some a => exact (h a rfl).present (solid a rfl)

theorem Recovers.list {g : α → Json} {as : List α} (h : ∀ a ∈ as, f.Recovers (g a) a) :
    f.list.Recovers (.arr (as.map g)) as := by
  refine ⟨Json.printable_arr.mpr ?_, fun {depth} shallow => ?_⟩
  · intro v mem
    obtain ⟨a, old, rfl⟩ := List.mem_map.mp mem
    exact (h a old).printable
  obtain _ | depth := depth
  · cases shallow
  have each := Json.nesting_arr_le_iff.mp shallow
  show (Document.ofItems (as.map g)).mapM (f depth) = _
  clear shallow
  induction as with
  | nil => rfl
  | cons a as ih =>
    rw [List.map_cons] at each
    obtain ⟨first, others⟩ := List.forall_mem_cons.mp each
    obtain ⟨head, tail⟩ := List.forall_mem_cons.mp h
    rw [List.map_cons, Document.ofItems, List.mapM_cons, head.read first, ih tail others]
    rfl

theorem Recovers.dict {g : α → Json} {d : Dict α} (h : ∀ e ∈ d.entries, f.Recovers (g e.2) e.2) :
    f.dict.Recovers (.obj (d.map fun _ => g).entries) d := by
  refine ⟨Json.printable_obj.mpr ?_, fun {depth} shallow => ?_⟩
  · intro v mem
    obtain ⟨e, old, rfl⟩ := List.mem_map.mp mem
    exact (h e old).printable
  obtain _ | depth := depth
  · cases shallow
  have each := Json.nesting_obj_le_iff.mp shallow
  have read : ∀ e ∈ d.entries, f depth (Document.ofJson (g e.2)) = some e.2 := fun e mem =>
    (h e mem).read (each _ (List.mem_map_of_mem mem))
  have entries := Document.mapM_ofFields (g := fun e => g e.2) read
  unfold Decoder.dict Document.ofJson
  exact (congrArg (Option.map Dict.ofList) entries).trans (congrArg some d.ofList_entries)

theorem recovers_record {r : Record} (h : r.WellFormed) (legible : (Json.ofRecord r).Legible) :
    record.Recovers (.ofRecord r) r := by
  refine ⟨Json.printable_of_legible h.words legible, fun {depth} shallow => ?_⟩
  exact (record_ofRecord h depth).trans (if_pos shallow)

end Decoder

/-! ## Structures -/

namespace Fields

variable {α : Type} {f : Decoder α} {v : Json} {a : α} {depth : Nat} {names : List String}
  {fs : List (String × Json)} {name : String}

/-- The fields of a structure that was written as an object. -/
def written (depth : Nat) (fs : List (String × Json)) : Fields :=
  ⟨depth, false, fs.map fun e => (e.1, Document.ofJson e.2)⟩

theorem get?_written : Entries.get? name (written depth fs).given =
    (Entries.get? name fs).map Document.ofJson := by
  induction fs with
  | nil => rfl
  | cons e fs ih =>
    obtain ⟨k, v⟩ := e
    show (if k = name then some (Document.ofJson v) else _) = _
    by_cases own : k = name
    · simp [Entries.get?, own]
    · rw [if_neg own, Entries.get?, if_neg own]
      exact ih

/-- **A structure is written in order**, and some of its fields are left out. -/
theorem read_written (within : List.Sublist (fs.map (·.1)) names) (distinct : names.Nodup) :
    read names (depth + 1) (Document.ofJson (.obj fs)) = some (written depth fs) := by
  have known : ∀ e ∈ fs, e.1 ∈ names := fun e mem => within.subset (List.mem_map_of_mem mem)
  have once : (fs.map (·.1)).Nodup := distinct.sublist within
  have members : ofMembers names (Document.ofFields fs) = some (written depth fs).given := by
    clear within
    induction fs with
    | nil => rfl
    | cons e fs ih =>
      obtain ⟨k, v⟩ := e
      obtain ⟨own, others⟩ := List.forall_mem_cons.mp known
      obtain ⟨alone, once⟩ := List.nodup_cons.mp once
      have absent : Entries.contains k (written depth fs).given = false := by
        rw [← Entries.get?_eq_none_iff, get?_written, Option.map_eq_none_iff,
          Entries.get?_eq_none_iff, ← Bool.not_eq_true, Entries.contains_iff]
        exact alone
      have found : names.contains k = true := List.contains_iff_mem.mpr own
      simp only [Document.ofFields, ofMembers, ih others once, Option.bind_eq_bind,
        Option.bind_some, found, absent]
      rfl
  show (ofMembers names (Document.ofFields fs)).map _ = _
  rw [members]
  rfl

theorem nesting_le_of_get? (found : Entries.get? name fs = some v)
    (shallow : (Json.obj fs).nesting ≤ depth + 1) : v.nesting ≤ depth := by
  obtain ⟨e, mem, rfl⟩ := Entries.exists_mem_of_get? found
  exact Json.nesting_obj_le_iff.mp shallow e mem

theorem withDefault_written {b : α} (found : ∀ v ∈ Entries.get? name fs, f.Recovers v a)
    (missing : Entries.get? name fs = none → a = b)
    (shallow : (Json.obj fs).nesting ≤ depth + 1) :
    (written depth fs).withDefault name b f = some a := by
  unfold withDefault
  rw [get?_written]
  cases field : Entries.get? name fs with
  | none =>
    rw [missing field]
    rfl
  | some v => exact (found v field).read (nesting_le_of_get? field shallow)

theorem withDefault_given (found : Entries.get? name fs = some v) (h : f.Recovers v a) (b : α)
    (shallow : (Json.obj fs).nesting ≤ depth + 1) :
    (written depth fs).withDefault name b f = some a := by
  refine withDefault_written (fun u mem => ?_) (fun missing => ?_) shallow
  · rw [found] at mem
    obtain rfl := Option.some.inj mem
    exact h
  · cases found.symm.trans missing

theorem withDefault_option {g : α → Json} {o : Option α}
    (field : Entries.get? name fs = o.map g) (h : ∀ a ∈ o, f.Recovers (g a) a)
    (solid : ∀ a, g a ≠ .null) (shallow : (Json.obj fs).nesting ≤ depth + 1) :
    (written depth fs).withDefault name none f.option = some o := by
  refine withDefault_written (fun u mem => ?_) (fun missing => ?_) shallow
  · rw [field] at mem
    obtain ⟨a, shown, rfl⟩ := Option.map_eq_some_iff.mp mem
    rw [shown]
    exact (h a shown).present (solid a)
  · exact Option.map_eq_none_iff.mp (field.symm.trans missing)

end Fields

end Cadence
