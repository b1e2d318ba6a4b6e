/-!
# Finite maps with string keys

A map is the list of its entries. The operations on bare lists of entries look at the first entry
of a key only; `Dict` bundles a list with the fact that its keys ascend, so that two maps with the
same lookups are the same map.

* `Entries.get?`, `Entries.insert`: lookup, and insertion that overwrites in place or else keeps
  ascending keys ascending;
* `Dict`: entries with strictly ascending keys, `Dict.ofList`, `Dict.insert`, `Dict.get?`;
* **`Entries.get?_insert`**: an insertion changes the lookup of its own key and of no other;
* **`Dict.ext_get?`**: maps with the same lookups are the same map.
-/

namespace Cadence

/-- Entries of a map; the first entry of a key is the one that counts. -/
abbrev Entries (α : Type) := List (String × α)

namespace Entries

variable {α β : Type}

/-- The value of the first entry with key `k`. -/
def get? (k : String) : Entries α → Option α
  | [] => none
  | (k', v) :: r => if k' = k then some v else get? k r

/-- Some entry has key `k`. -/
def contains (k : String) : Entries α → Bool
  | [] => false
  | (k', _) :: r => k' = k || contains k r

/-- Overwrite the first entry with key `k`. -/
def replace (k : String) (v : α) : Entries α → Entries α
  | [] => []
  | (k', v') :: r => if k' = k then (k', v) :: r else (k', v') :: replace k v r

/-- Put a new entry in front of the first greater key. -/
def place (k : String) (v : α) : Entries α → Entries α
  | [] => [(k, v)]
  | (k', v') :: r => if k < k' then (k, v) :: (k', v') :: r else (k', v') :: place k v r

/-- Set the value of key `k`. -/
def insert (k : String) (v : α) (es : Entries α) : Entries α :=
  if es.contains k then es.replace k v else es.place k v

/-- Remove every entry with key `k`. -/
def erase (k : String) (es : Entries α) : Entries α :=
  es.filter (·.1 ≠ k)

/-- Keys in order. -/
def keys (es : Entries α) : List String := es.map (·.1)

/-- Insert all entries of a list in turn, so that the last one of a key wins. -/
def ofList (es : List (String × α)) : Entries α :=
  es.foldl (fun acc e => acc.insert e.1 e.2) []

theorem get?_eq_none_iff {k : String} {es : Entries α} :
    es.get? k = none ↔ es.contains k = false := by
  induction es with
  | nil => simp [get?, contains]
  | cons e r ih =>
    obtain ⟨k', v⟩ := e
    by_cases h : k' = k <;> simp [get?, contains, h, ih]

theorem get?_replace_self {k : String} {es : Entries α} (v : α) (h : es.contains k = true) :
    (es.replace k v).get? k = some v := by
  induction es with
  | nil => simp [contains] at h
  | cons e r ih =>
    obtain ⟨k', v'⟩ := e
    by_cases hk : k' = k
    · simp [replace, get?, hk]
    · simp only [contains, hk, decide_false, Bool.false_or] at h
      simp [replace, get?, hk, ih h]

theorem get?_replace_of_ne {k k₂ : String} (es : Entries α) (v : α) (h : k ≠ k₂) :
    (es.replace k v).get? k₂ = es.get? k₂ := by
  induction es with
  | nil => rfl
  | cons e r ih =>
    obtain ⟨k', v'⟩ := e
    by_cases hk : k' = k
    · subst hk; simp [replace, get?, h]
    · by_cases hk2 : k' = k₂
      · subst hk2; simp [replace, get?, hk]
      · simp [replace, get?, hk, hk2, ih]

theorem get?_place_self {k : String} {es : Entries α} (v : α) (h : es.contains k = false) :
    (es.place k v).get? k = some v := by
  induction es with
  | nil => simp [place, get?]
  | cons e r ih =>
    obtain ⟨k', v'⟩ := e
    simp only [contains, Bool.or_eq_false_iff, decide_eq_false_iff_not] at h
    by_cases hlt : k < k'
    · simp [place, hlt, get?]
    · simp [place, hlt, get?, h.1, ih h.2]

theorem get?_place_of_ne {k k₂ : String} (es : Entries α) (v : α) (h : k ≠ k₂) :
    (es.place k v).get? k₂ = es.get? k₂ := by
  induction es with
  | nil => simp [place, get?, h]
  | cons e r ih =>
    obtain ⟨k', v'⟩ := e
    by_cases hlt : k < k'
    · simp [place, hlt, get?, h]
    · simp [place, hlt, get?, ih]

/-- **An insertion sets its own key and leaves the others.** -/
theorem get?_insert (k k₂ : String) (v : α) (es : Entries α) :
    (es.insert k v).get? k₂ = if k = k₂ then some v else es.get? k₂ := by
  unfold insert
  by_cases h : k = k₂
  · subst h
    cases hc : es.contains k
    · simp [get?_place_self v hc]
    · simp [get?_replace_self v hc]
  · cases es.contains k <;> simp [h, get?_replace_of_ne, get?_place_of_ne]

theorem mem_keys_replace {k a : String} {es : Entries α} {v : α} :
    a ∈ (es.replace k v).keys ↔ a ∈ es.keys := by
  induction es with
  | nil => rfl
  | cons e r ih =>
    obtain ⟨k', v'⟩ := e
    by_cases hk : k' = k
    · simp [replace, keys, hk]
    · simpa [replace, keys, hk] using or_congr_right ih

theorem mem_keys_place {k a : String} {es : Entries α} {v : α} :
    a ∈ (es.place k v).keys ↔ a = k ∨ a ∈ es.keys := by
  induction es with
  | nil => simp [place, keys]
  | cons e r ih =>
    obtain ⟨k', v'⟩ := e
    by_cases hlt : k < k'
    · simp [place, hlt, keys]
    · simp only [keys] at ih
      simp only [place, hlt, if_false, keys, List.map_cons, List.mem_cons, ih]
      exact or_left_comm

theorem contains_iff {k : String} {es : Entries α} : es.contains k = true ↔ k ∈ es.keys := by
  induction es with
  | nil => simp [contains, keys]
  | cons e r ih =>
    obtain ⟨k', v⟩ := e
    simp only [contains, Bool.or_eq_true, decide_eq_true_eq, ih, keys, List.map_cons, List.mem_cons]
    exact or_congr_left eq_comm

theorem mem_keys_insert {k a : String} {es : Entries α} {v : α} :
    a ∈ (es.insert k v).keys ↔ a = k ∨ a ∈ es.keys := by
  unfold insert
  cases found : es.contains k
  · exact mem_keys_place
  · have mem := contains_iff.mp found
    simp only [if_true, mem_keys_replace]
    constructor
    · exact .inr
    · rintro (rfl | old)
      · exact mem
      · exact old

/-- Keys ascend strictly. -/
def Ascending (es : Entries α) : Prop := es.Pairwise fun a b => a.1 < b.1

instance (es : Entries α) : Decidable es.Ascending :=
  inferInstanceAs (Decidable (List.Pairwise _ _))

theorem Ascending.replace {k : String} {es : Entries α} (v : α) (h : es.Ascending) :
    (es.replace k v).Ascending := by
  induction es with
  | nil => exact h
  | cons e r ih =>
    obtain ⟨k', v'⟩ := e
    obtain ⟨h1, h2⟩ := List.pairwise_cons.mp h
    by_cases hk : k' = k
    · simpa [Entries.replace, hk, Ascending] using h
    · rw [Entries.replace, if_neg hk]
      refine List.pairwise_cons.mpr ⟨fun e he => ?_, ih h2⟩
      have : e.1 ∈ (Entries.replace k v r).keys := List.mem_map_of_mem he
      obtain ⟨e', he', heq⟩ := List.mem_map.mp (mem_keys_replace.mp this)
      exact heq ▸ h1 e' he'

theorem Ascending.place {k : String} {es : Entries α} (v : α) (h : es.Ascending)
    (hk : es.contains k = false) : (es.place k v).Ascending := by
  induction es with
  | nil => simp [Entries.place, Ascending]
  | cons e r ih =>
    obtain ⟨k', v'⟩ := e
    obtain ⟨h1, h2⟩ := List.pairwise_cons.mp h
    simp only [contains, Bool.or_eq_false_iff, decide_eq_false_iff_not] at hk
    by_cases hlt : k < k'
    · rw [Entries.place, if_pos hlt]
      refine List.pairwise_cons.mpr ⟨fun e he => ?_, h⟩
      rcases List.mem_cons.mp he with rfl | he
      · exact hlt
      · exact String.lt_trans hlt (h1 e he)
    · rw [Entries.place, if_neg hlt]
      refine List.pairwise_cons.mpr ⟨fun e he => ?_, ih h2 hk.2⟩
      have hgt : k' < k := by
        rcases Classical.em (k' < k) with hl | hl
        · exact hl
        · exact absurd (String.le_antisymm (String.not_lt.mp hlt) (String.not_lt.mp hl)) hk.1
      have : e.1 ∈ (Entries.place k v r).keys := List.mem_map_of_mem he
      rcases mem_keys_place.mp this with heq | hmem
      · exact heq ▸ hgt
      · obtain ⟨e', he', heq⟩ := List.mem_map.mp hmem
        exact heq ▸ h1 e' he'

theorem Ascending.insert {k : String} {es : Entries α} (v : α) (h : es.Ascending) :
    (es.insert k v).Ascending := by
  unfold Entries.insert
  cases hc : es.contains k
  · exact h.place v hc
  · exact h.replace v

theorem Ascending.erase {k : String} {es : Entries α} (h : es.Ascending) : (es.erase k).Ascending :=
  h.filter _

theorem Ascending.ofList (es : List (String × α)) : (Entries.ofList es).Ascending := by
  unfold Entries.ofList
  suffices ∀ acc : Entries α, acc.Ascending →
      (es.foldl (fun acc e => acc.insert e.1 e.2) acc).Ascending from this [] List.Pairwise.nil
  induction es with
  | nil => exact fun acc h => h
  | cons e r ih => exact fun acc h => ih _ (h.insert e.2)

theorem Ascending.map {es : Entries α} (f : String → α → β) (h : es.Ascending) :
    Ascending (List.map (fun e => (e.1, f e.1 e.2)) es) :=
  List.pairwise_map.mpr h

theorem Ascending.nodup {es : Entries α} (h : es.Ascending) : es.Nodup := by
  refine h.imp ?_
  rintro e _ lt rfl
  exact String.lt_irrefl _ lt

theorem Ascending.get?_eq_some_iff {es : Entries α} {k : String} {v : α} (h : es.Ascending) :
    es.get? k = some v ↔ (k, v) ∈ es := by
  induction es with
  | nil => simp [get?]
  | cons e es ih =>
    obtain ⟨k', v'⟩ := e
    obtain ⟨least, rest⟩ := List.pairwise_cons.mp h
    rw [get?, List.mem_cons, Prod.mk.injEq]
    by_cases here : k' = k
    · have only : (k, v) ∉ es := fun mem => String.lt_irrefl k (here ▸ least _ mem)
      simp [here, only, eq_comm]
    · simp [here, Ne.symm here, ih rest]

theorem Ascending.eq_of_get? {es es' : Entries α} (h : es.Ascending) (h' : es'.Ascending)
    (same : ∀ k, es.get? k = es'.get? k) : es = es' := by
  have perm : es.Perm es' := by
    refine (List.perm_ext_iff_of_nodup h.nodup h'.nodup).mpr fun ⟨k, v⟩ => ?_
    rw [← h.get?_eq_some_iff, ← h'.get?_eq_some_iff, same k]
  exact perm.eq_of_pairwise (fun _ _ _ _ lt gt => absurd gt (String.lt_asymm lt)) h h'

end Entries

/-- A map with string keys: its entries by strictly ascending key. -/
structure Dict (α : Type) where
  entries : Entries α
  ascending : entries.Ascending
deriving DecidableEq

namespace Dict

variable {α β : Type}

/-- The empty map. -/
def empty : Dict α := ⟨[], List.Pairwise.nil⟩

instance : EmptyCollection (Dict α) := ⟨empty⟩

instance : Inhabited (Dict α) := ⟨empty⟩

/-- The value of a key. -/
def get? (d : Dict α) (k : String) : Option α := d.entries.get? k

/-- The map has a value for `k`. -/
def contains (d : Dict α) (k : String) : Bool := d.entries.contains k

/-- Set the value of a key. -/
def insert (d : Dict α) (k : String) (v : α) : Dict α :=
  ⟨d.entries.insert k v, d.ascending.insert v⟩

/-- Forget a key. -/
def erase (d : Dict α) (k : String) : Dict α := ⟨d.entries.erase k, d.ascending.erase⟩

/-- The map of a list of entries; the last entry of a key wins. -/
def ofList (es : List (String × α)) : Dict α := ⟨Entries.ofList es, Entries.Ascending.ofList es⟩

/-- Entries by ascending key. -/
def toList (d : Dict α) : List (String × α) := d.entries

/-- Keys in ascending order. -/
def keys (d : Dict α) : List String := d.entries.keys

/-- The number of keys. -/
def size (d : Dict α) : Nat := d.entries.length

/-- The map has no keys. -/
def isEmpty (d : Dict α) : Bool := d.entries.isEmpty

/-- Apply a function to every value. -/
def map (f : String → α → β) (d : Dict α) : Dict β :=
  ⟨List.map (fun e => (e.1, f e.1 e.2)) d.entries, d.ascending.map f⟩

theorem get?_insert (d : Dict α) (k k₂ : String) (v : α) :
    (d.insert k v).get? k₂ = if k = k₂ then some v else d.get? k₂ :=
  Entries.get?_insert k k₂ v d.entries

theorem mem_keys_insert {d : Dict α} {k a : String} {v : α} :
    a ∈ (d.insert k v).keys ↔ a = k ∨ a ∈ d.keys :=
  Entries.mem_keys_insert

/-- **Maps with the same lookups are the same map.** -/
theorem ext_get? {d e : Dict α} (same : ∀ k, d.get? k = e.get? k) : d = e := by
  obtain ⟨es, ascending⟩ := d
  obtain ⟨es', ascending'⟩ := e
  obtain rfl : es = es' := ascending.eq_of_get? ascending' same
  rfl

end Dict

end Cadence
