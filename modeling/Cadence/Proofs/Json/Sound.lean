import Cadence.Proofs.Json.Reading

/-!
# What is read is well-formed

Whatever the bytes are, the numbers in the document that is read from them are words or doubles, and
the objects that are made of it have ascending keys.

* `Document.Sound`, `Document.sound_of_read?`: the numbers in a document are well-formed;
* `Document.Sound.wellFormed`: so are the values that are made of it;
* **`Decoder.wellFormed_record`**: a record that was read is well-formed.
-/

namespace Cadence

namespace Document

/-- The numbers in a document are well-formed values. -/
inductive Sound : Document → Prop
  | null : Sound .null
  | bool (b : Bool) : Sound (.bool b)
  | number {n : Option Json} (fits : ∀ v ∈ n, v.WellFormed) : Sound (.number n)
  | str (s : Option String) : Sound (.str s)
  | arr {items : List Document} (each : ∀ d ∈ items, Sound d) : Sound (.arr items)
  | obj {members : List (Option String × Document)} (each : ∀ m ∈ members, Sound m.2) :
      Sound (.obj members)

theorem leading_lt {n : Nat} (small : n < Word.count) (ds : List Nat) :
    (leading n ds).1 < Word.count := by
  induction ds generalizing n with
  | nil => exact small
  | cons d ds ih =>
    rw [leading]
    split
    · exact small
    · next fits => exact ih (Nat.not_le.mp fits)

theorem wellFormed_of_float {x : Option Double} {v : Json} (value : x.map .float = some v) :
    v.WellFormed := by
  obtain ⟨y, -, rfl⟩ := Option.map_eq_some_iff.mp value
  exact ⟨trivial, trivial⟩

theorem Numeral.wellFormed_value {t : Numeral} {v : Json} (value : t.value? = some v) :
    v.WellFormed := by
  have small : (leading 0 t.whole).1 < Word.count := leading_lt (by decide) _
  unfold Numeral.value? at value
  dsimp only at value
  split at value
  · split at value
    · cases value
      exact Json.wellFormed_nat (Nat.le_of_lt_succ small)
    · split at value
      · next fits =>
        cases value
        refine ⟨⟨?_, ?_⟩, trivial⟩
        · have := fits.2.2
          omega
        · omega
      · exact wellFormed_of_float value
  · split at value
    · exact wellFormed_of_float value
    · split at value
      · split at value
        · cases value
        · cases value
          exact ⟨trivial, trivial⟩
      · exact wellFormed_of_float value

theorem sound_readDocument {fuel : Nat}
    (items : ∀ bs d r, readItems fuel [] bs = some (d, r) → d.Sound)
    (members : ∀ bs d r, readMembers fuel [] bs = some (d, r) → d.Sound)
    {bs r : Bytes} {d : Document} (read : readDocument (fuel + 1) bs = some (d, r)) : d.Sound := by
  rw [readDocument] at read
  split at read
  · cases read
  · next b bs _ =>
    split at read
    · obtain ⟨⟨s, r'⟩, -, eq⟩ := Option.map_eq_some_iff.mp read
      cases eq
      exact .str s
    split at read
    · split at read
      · split at read
        · cases read
          exact .arr nofun
        · exact items _ _ _ read
      · cases read
    split at read
    · split at read
      · split at read
        · cases read
          exact .obj nofun
        · exact members _ _ _ read
      · cases read
    split at read
    · obtain ⟨r', -, eq⟩ := Option.map_eq_some_iff.mp read
      cases eq
      exact .null
    split at read
    · obtain ⟨r', -, eq⟩ := Option.map_eq_some_iff.mp read
      cases eq
      exact .bool true
    split at read
    · obtain ⟨r', -, eq⟩ := Option.map_eq_some_iff.mp read
      cases eq
      exact .bool false
    · obtain ⟨⟨t, r'⟩, -, eq⟩ := Option.map_eq_some_iff.mp read
      cases eq
      exact .number fun v value => t.wellFormed_value value

theorem sound_readItems {fuel : Nat}
    (document : ∀ bs d r, readDocument fuel bs = some (d, r) → d.Sound)
    (items : ∀ acc bs d r, (∀ e ∈ acc, Sound e) → readItems fuel acc bs = some (d, r) → d.Sound)
    {acc : List Document} {bs r : Bytes} {d : Document} (old : ∀ e ∈ acc, Sound e)
    (read : readItems (fuel + 1) acc bs = some (d, r)) : d.Sound := by
  rw [readItems] at read
  split at read
  · cases read
  · next item bs' found =>
    have all : ∀ e ∈ item :: acc, Sound e := List.forall_mem_cons.mpr ⟨document _ _ _ found, old⟩
    split at read
    · split at read
      · cases read
        exact .arr fun e mem => all e (List.mem_reverse.mp mem)
      · split at read
        · exact items _ _ _ _ all read
        · cases read
    · cases read

theorem sound_readMembers {fuel : Nat}
    (document : ∀ bs d r, readDocument fuel bs = some (d, r) → d.Sound)
    (members : ∀ acc bs d r, (∀ m ∈ acc, Sound m.2) → readMembers fuel acc bs = some (d, r) →
      d.Sound)
    {acc : List (Option String × Document)} {bs r : Bytes} {d : Document}
    (old : ∀ m ∈ acc, Sound m.2) (read : readMembers (fuel + 1) acc bs = some (d, r)) :
    d.Sound := by
  rw [readMembers] at read
  split at read
  · split at read
    · cases read
    split at read
    · cases read
    · next k _ _ =>
      split at read
      · split at read
        · cases read
        split at read
        · cases read
        · next value bs' found =>
          have all : ∀ m ∈ (k, value) :: acc, Sound m.2 :=
            List.forall_mem_cons.mpr ⟨document _ _ _ found, old⟩
          split at read
          · split at read
            · cases read
              exact .obj fun m mem => all m (List.mem_reverse.mp mem)
            · split at read
              · exact members _ _ _ _ all read
              · cases read
          · cases read
      · cases read
  · cases read

theorem sound_of_fuel (fuel : Nat) :
    (∀ bs d r, readDocument fuel bs = some (d, r) → d.Sound) ∧
    (∀ acc bs d r, (∀ e ∈ acc, Sound e) → readItems fuel acc bs = some (d, r) → d.Sound) ∧
    ∀ acc bs d r, (∀ m ∈ acc, Sound m.2) → readMembers fuel acc bs = some (d, r) → d.Sound := by
  induction fuel with
  | zero => exact ⟨nofun, nofun, nofun⟩
  | succ fuel ih =>
    obtain ⟨document, items, members⟩ := ih
    refine ⟨fun _ _ _ => sound_readDocument ?_ ?_, fun _ _ _ _ => sound_readItems document items,
      fun _ _ _ _ => sound_readMembers document members⟩
    · exact fun bs d r => items [] bs d r nofun
    · exact fun bs d r => members [] bs d r nofun

theorem sound_of_read? {bs : Bytes} {d : Document} (read : read? bs = some d) : d.Sound := by
  obtain ⟨⟨d', r⟩, found, rest⟩ := Option.bind_eq_some_iff.mp read
  dsimp only at rest
  split at rest
  · cases rest
    exact (sound_of_fuel _).1 _ _ _ found
  · cases rest

theorem wellFormed_values? {items : List Document} {depth : Nat}
    (each : ∀ d ∈ items, ∀ v, value? depth d = some v → v.WellFormed) {vs : List Json}
    (values : values? depth items = some vs) : ∀ v ∈ vs, v.WellFormed := by
  induction items generalizing vs with
  | nil =>
    cases values
    exact nofun
  | cons d ds ih =>
    obtain ⟨first, others⟩ := List.forall_mem_cons.mp each
    obtain ⟨v, value, rest⟩ := Option.bind_eq_some_iff.mp values
    obtain ⟨ws, more, eq⟩ := Option.bind_eq_some_iff.mp rest
    cases eq
    exact List.forall_mem_cons.mpr ⟨first v value, ih others more⟩

theorem wellFormed_entries? {members : List (Option String × Document)} {depth : Nat}
    (each : ∀ m ∈ members, ∀ v, value? depth m.2 = some v → v.WellFormed)
    {es : List (String × Json)} (entries : entries? depth members = some es) :
    ∀ e ∈ es, e.2.WellFormed := by
  induction members generalizing es with
  | nil =>
    cases entries
    exact nofun
  | cons m ms ih =>
    obtain ⟨first, others⟩ := List.forall_mem_cons.mp each
    obtain ⟨k, -, rest⟩ := Option.bind_eq_some_iff.mp entries
    obtain ⟨v, value, rest⟩ := Option.bind_eq_some_iff.mp rest
    obtain ⟨fs, more, eq⟩ := Option.bind_eq_some_iff.mp rest
    cases eq
    exact List.forall_mem_cons.mpr ⟨first v value, ih others more⟩

theorem Sound.wellFormed {d : Document} (h : d.Sound) {depth : Nat} {v : Json}
    (value : value? depth d = some v) : v.WellFormed := by
  induction h generalizing depth v with
  | null | bool =>
    cases value
    exact ⟨trivial, trivial⟩
  | number fits => exact fits v value
  | str s =>
    obtain ⟨t, -, rfl⟩ := Option.map_eq_some_iff.mp value
    exact ⟨trivial, trivial⟩
  | arr _ ih =>
    cases depth with
    | zero => cases value
    | succ depth =>
      obtain ⟨vs, values, rfl⟩ := Option.map_eq_some_iff.mp value
      exact Json.wellFormed_arr.mpr (wellFormed_values? (fun d mem v => ih d mem) values)
  | obj _ ih =>
    cases depth with
    | zero => cases value
    | succ depth =>
      obtain ⟨es, entries, rfl⟩ := Option.map_eq_some_iff.mp value
      have each := wellFormed_entries? (fun m mem v => ih m mem) entries
      refine Json.wellFormed_obj.mpr ⟨Entries.Ascending.ofList es, fun f mem => ?_⟩
      obtain ⟨e, old, eq⟩ := Entries.mem_ofList mem
      exact eq ▸ each e old

end Document

/-- **A record that was read** is well-formed. -/
theorem Decoder.wellFormed_record {bs : Bytes} {r : Record} (read : record.run bs = some r) :
    r.WellFormed := by
  obtain ⟨d, found, read⟩ := Option.bind_eq_some_iff.mp read
  have sound := Document.sound_of_read? found
  cases d with
  | obj members =>
    rw [Document.maxDepth, record_obj] at read
    obtain ⟨es, entries, rfl⟩ := Option.map_eq_some_iff.mp read
    cases sound with
    | obj each =>
      have values := Document.wellFormed_entries? (fun m mem v => (each m mem).wellFormed) entries
      refine Record.wellFormed_iff.mpr fun f mem => ?_
      obtain ⟨e, old, eq⟩ := Entries.mem_ofList mem
      exact eq ▸ values e old
  | null | bool | number | str | arr => cases read

end Cadence
