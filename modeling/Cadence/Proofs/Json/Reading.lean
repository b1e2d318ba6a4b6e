import Cadence.Engine.Snapshot
import Cadence.Proofs.Json.Shape

/-!
# The documents of values

A reader takes the document of a value to that value, if arrays and objects are not nested too deep
in it. A snapshot is nested one level deeper than the records in it.

* `Document.value?_ofJson`, `Decoder.record_ofRecord`: documents of values and of records;
* `Snapshot.nesting_le_iff`: the records of a snapshot and its own nesting;
* **`Snapshot.decoder_toJson`**: documents of snapshots.
-/

namespace Cadence

namespace Entries

variable {α : Type}

theorem insert_last {acc : Entries α} {k : String} (below : ∀ e ∈ acc, e.1 < k) (v : α) :
    Entries.insert k v acc = acc ++ [(k, v)] := by
  induction acc with
  | nil => rfl
  | cons e acc ih =>
    obtain ⟨k', v'⟩ := e
    obtain ⟨first, others⟩ := List.forall_mem_cons.mp below
    have ne : k' ≠ k := String.ne_of_lt first
    have after : ¬ k < k' := String.lt_asymm first
    have ih := ih others
    unfold Entries.insert at ih ⊢
    cases found : Entries.contains k acc with
    | false => simpa [contains, place, ne, after, found] using ih
    | true => simpa [contains, replace, ne, found] using ih

theorem ofList_of_ascending {es : Entries α} (h : es.Ascending) : ofList es = es := by
  have go (es acc : Entries α) (h : Ascending (acc ++ es)) :
      es.foldl (fun acc e => Entries.insert e.1 e.2 acc) acc = acc ++ es := by
    induction es generalizing acc with
    | nil => simp
    | cons e es ih =>
      have below : ∀ e' ∈ acc, e'.1 < e.1 := fun e' mem =>
        (List.pairwise_append.mp h).2.2 e' mem e List.mem_cons_self
      rw [List.foldl_cons, insert_last below, ih]
      · simp
      · simpa using h
  exact go es [] h

end Entries

theorem Dict.ofList_entries {α : Type} (d : Dict α) : Dict.ofList d.entries = d := by
  obtain ⟨entries, ascending⟩ := d
  simp [Dict.ofList, Entries.ofList_of_ascending ascending]

/-! ## Documents of values -/

namespace Document

open Json (nesting nestingItems nestingFields)

theorem values?_ofItems {vs : List Json} {depth : Nat}
    (each : ∀ v ∈ vs, value? depth (ofJson v) = if v.nesting ≤ depth then some v else none) :
    values? depth (ofItems vs) = if nestingItems vs ≤ depth then some vs else none := by
  induction vs with
  | nil => simp [ofItems, values?, nestingItems]
  | cons v vs ih =>
    obtain ⟨first, others⟩ := List.forall_mem_cons.mp each
    rw [ofItems, values?, first, ih others, nestingItems]
    simp only [Nat.max_le]
    by_cases shallow : v.nesting ≤ depth
    · by_cases rest : nestingItems vs ≤ depth
      · simp [shallow, rest]
      · simp [shallow, rest]
    · simp [shallow]

theorem entries?_ofFields {fs : List (String × Json)} {depth : Nat}
    (each : ∀ f ∈ fs, value? depth (ofJson f.2) = if f.2.nesting ≤ depth then some f.2 else none) :
    entries? depth (ofFields fs) = if nestingFields fs ≤ depth then some fs else none := by
  induction fs with
  | nil => simp [ofFields, entries?, nestingFields]
  | cons f fs ih =>
    obtain ⟨k, v⟩ := f
    obtain ⟨first, others⟩ := List.forall_mem_cons.mp each
    dsimp only at first
    rw [ofFields, entries?, first, ih others, nestingFields]
    simp only [Nat.max_le]
    by_cases shallow : v.nesting ≤ depth
    · by_cases rest : nestingFields fs ≤ depth
      · simp [shallow, rest]
      · simp [shallow, rest]
    · simp [shallow]

/-- **The document of a value** gives the value, unless it is nested too deep. -/
theorem value?_ofJson {v : Json} (h : v.WellFormed) (depth : Nat) :
    value? depth (ofJson v) = if v.nesting ≤ depth then some v else none := by
  induction v using Json.inductionOn generalizing depth with
  | null | bool | int | float | str => simp [ofJson, value?, nesting]
  | arr items ih =>
    have each := Json.wellFormed_arr.mp h
    cases depth with
    | zero => simp [ofJson, value?, nesting]
    | succ depth =>
      have read := values?_ofItems fun v mem => ih v mem (each v mem) depth
      by_cases shallow : nestingItems items ≤ depth
      · simp [ofJson, value?, nesting, read, shallow]
      · simp [ofJson, value?, nesting, read, shallow]
  | obj fields ih =>
    obtain ⟨ascending, each⟩ := Json.wellFormed_obj.mp h
    cases depth with
    | zero => simp [ofJson, value?, nesting]
    | succ depth =>
      have read := entries?_ofFields fun f mem => ih f mem (each f mem) depth
      by_cases shallow : nestingFields fields ≤ depth
      · simp [ofJson, value?, nesting, read, shallow, Entries.ofList_of_ascending ascending]
      · simp [ofJson, value?, nesting, read, shallow]

theorem mapM_eq_entries? (depth : Nat) (members : List (Option String × Document)) :
    (members.mapM fun (m : Option String × Document) => do
      let k ← m.1
      let v ← Decoder.value depth m.2
      return (k, v)) = entries? depth members := by
  induction members with
  | nil => rfl
  | cons m members ih =>
    obtain ⟨k, d⟩ := m
    rw [List.mapM_cons, ih, entries?]
    cases k with
    | none => rfl
    | some k =>
      simp only [Decoder.value, Option.bind_eq_bind]
      cases value? depth d <;> rfl

end Document

theorem Decoder.record_obj (depth : Nat) (members : List (Option String × Document)) :
    Decoder.record (depth + 1) (.obj members) =
      (Document.entries? depth members).map Dict.ofList := by
  rw [← Document.mapM_eq_entries?]
  rfl

/-- How deep a record is nested; it is an object itself. -/
def Record.nesting (r : Record) : Nat := (Json.ofRecord r).nesting

theorem Decoder.record_ofRecord {r : Record} (h : r.WellFormed) (depth : Nat) :
    Decoder.record depth (Document.ofJson (.ofRecord r)) =
      if r.nesting ≤ depth then some r else none := by
  cases depth with
  | zero => simp [Json.ofRecord, Record.nesting, Json.nesting, record, dict]
  | succ depth =>
    have each := Record.wellFormed_iff.mp h
    have read := Document.entries?_ofFields fun f mem => Document.value?_ofJson (each f mem) depth
    rw [Json.ofRecord, Document.ofJson, record_obj, read]
    by_cases shallow : Json.nestingFields r.entries ≤ depth
    · simp [Record.nesting, Json.ofRecord, Json.nesting, shallow, Dict.ofList_entries]
    · simp [Record.nesting, Json.ofRecord, Json.nesting, shallow]

/-! ## Documents of snapshots -/

namespace Snapshot

/-- A snapshot with a count that a word holds and with well-formed records. -/
structure WellFormed (s : Snapshot) : Prop where
  count : s.stepCount ≤ Word.largest
  input : s.input.WellFormed
  outputs : ∀ outputs ∈ s.outputs, outputs.WellFormed

/-- How deep a snapshot is nested; it is an object with its records one level below. -/
def nesting (s : Snapshot) : Nat := s.toJson.nesting

theorem nesting_le_iff {s : Snapshot} {depth : Nat} : s.nesting ≤ depth + 1 ↔
    s.input.nesting ≤ depth ∧ ∀ outputs ∈ s.outputs, outputs.nesting ≤ depth := by
  obtain ⟨stepCount, input, outputs, error⟩ := s
  have text : (Json.orNull Json.str error).nesting = 0 := by cases error <;> rfl
  show max 0 (max input.nesting (max (Json.orNull Json.ofRecord outputs).nesting
    (max (Json.orNull Json.str error).nesting 0))) + 1 ≤ depth + 1 ↔ _
  rw [text]
  cases outputs with
  | none => simp [Json.orNull, Json.nesting]
  | some outputs =>
    simp only [Nat.add_le_add_iff_right, Nat.max_le]
    simp [Json.orNull, Record.nesting]

theorem option_ofOutputs {outputs : Option Record} (h : ∀ o ∈ outputs, o.WellFormed)
    (depth : Nat) :
    Decoder.record.option depth (Document.ofJson (Json.orNull .ofRecord outputs)) =
      if ∀ o ∈ outputs, o.nesting ≤ depth then some outputs else none := by
  cases outputs with
  | none => simp [Json.orNull, Document.ofJson, Decoder.option]
  | some o =>
    show (Decoder.record depth (Document.ofJson (.ofRecord o))).map some = _
    rw [Decoder.record_ofRecord (h o rfl)]
    by_cases shallow : o.nesting ≤ depth
    · simp [shallow]
    · simp [shallow]

theorem option_ofError (error : Option String) (depth : Nat) :
    Decoder.string.option depth (Document.ofJson (Json.orNull .str error)) = some error := by
  cases error <;> rfl

/-- **The document of a snapshot** gives the snapshot, unless it is nested too deep. -/
theorem decoder_toJson {s : Snapshot} (h : s.WellFormed) (depth : Nat) :
    decoder depth (Document.ofJson s.toJson) = if s.nesting ≤ depth then some s else none := by
  cases depth with
  | zero =>
    have deep : ¬ s.nesting ≤ 0 := Nat.not_succ_le_zero _
    rw [if_neg deep]
    rfl
  | succ depth =>
    let fields : Fields := ⟨depth, false, [
      ("step_count", .number (some (.nat s.stepCount))),
      ("input", Document.ofJson (.ofRecord s.input)),
      ("outputs", Document.ofJson (Json.orNull .ofRecord s.outputs)),
      ("error", Document.ofJson (Json.orNull .str s.error))]⟩
    have read : Fields.read ["step_count", "input", "outputs", "error"] (depth + 1)
        (Document.ofJson s.toJson) = some fields := rfl
    have count : fields.required "step_count" (Decoder.unsigned Word.largest) =
        some s.stepCount := by
      have fits : (s.stepCount : Int) ≤ Word.largest := Int.ofNat_le.mpr h.count
      simp [fields, Fields.required, Entries.get?, Json.nat, Decoder.unsigned, fits]
    have input : fields.required "input" Decoder.record =
        if s.input.nesting ≤ depth then some s.input else none :=
      Decoder.record_ofRecord h.input depth
    have outputs : fields.optional "outputs" Decoder.record =
        if ∀ outputs ∈ s.outputs, outputs.nesting ≤ depth then some s.outputs else none :=
      option_ofOutputs h.outputs depth
    have error : fields.optional "error" Decoder.string = some s.error :=
      option_ofError s.error depth
    unfold decoder
    rw [read]
    simp only [Option.bind_eq_bind, Option.bind_some, count, input, outputs, error]
    by_cases shallow : s.input.nesting ≤ depth
    · by_cases below : ∀ outputs ∈ s.outputs, outputs.nesting ≤ depth
      · rw [if_pos shallow, if_pos below, if_pos (nesting_le_iff.mpr ⟨shallow, below⟩)]
        rfl
      · have deep : ¬ s.nesting ≤ depth + 1 := fun le => below (nesting_le_iff.mp le).2
        rw [if_pos shallow, if_neg below, if_neg deep]
        rfl
    · have deep : ¬ s.nesting ≤ depth + 1 := fun le => shallow (nesting_le_iff.mp le).1
      rw [if_neg shallow, if_neg deep]
      rfl

end Snapshot

end Cadence
