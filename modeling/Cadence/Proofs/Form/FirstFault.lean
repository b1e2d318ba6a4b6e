import Cadence.Proofs.Form.Conformance
import Cadence.Proofs.Json.Typed

/-!
# The first fault of a value

A fault has a position: a way from the value, through indices and keys, to a value of the wrong kind
or to a missing one. Positions are ordered by their first difference, indices by number and keys by
name. A check blames the first position that is at fault.

* `Segment`, `Segment.Before`: a way from a value to one within it;
* `FormField.FaultyAt`: all positions at fault, and what is wrong there;
* `FormField.FirstFault`: the first of them;
* `FormField.firstFault_of_fault?`: what a check finds is the first fault;
* `FormSchema.ordered_of_decoder`: forms that are read list their fields in order;
* **`FormSchema.check_first_faults`**: the errors of an input.
-/

namespace Cadence

/-! ## Positions -/

/-- A way from a value to one within it. -/
inductive Segment
  | item (index : Nat)
  | entry (key : String)
deriving DecidableEq, Repr

namespace Segment

/-- Indices come in the order of numbers, keys in the order of names. -/
inductive Before : Segment → Segment → Prop
  | item {i j : Nat} (lt : i < j) : Before (.item i) (.item j)
  | entry {k l : String} (lt : k < l) : Before (.entry k) (.entry l)

/-- The segment in front of a message. -/
def shown : Segment → String
  | .item i => "[" ++ toString i ++ "]: "
  | .entry k => k ++ ": "

/-- A position in front of a message. -/
def chain : List Segment → String
  | [] => ""
  | s :: p => s.shown ++ chain p

end Segment

namespace FormFault

/-- The position of a fault. -/
def position : FormFault → List Segment
  | .missing | .mismatch _ _ => []
  | .item i f => .item i :: f.position
  | .entry k f => .entry k :: f.position

/-- What is wrong at the position of a fault. -/
def reason : FormFault → String
  | .missing => "Required field missing"
  | .mismatch expected got => "Expected " ++ expected ++ ", got " ++ got
  | .item _ f | .entry _ f => f.reason

theorem message_eq (f : FormFault) : f.message = Segment.chain f.position ++ f.reason := by
  induction f with
  | missing | mismatch => simp [message, position, Segment.chain, reason]
  | item i f ih | entry k f ih =>
    rw [message, ih]
    simp only [position, Segment.chain, Segment.shown, reason, String.append_assoc]

end FormFault

namespace FormField

/-- What a declared type asks of the value itself: an array or an object has to be one, and any
other value has to conform. -/
def Suits : FormField → Json → Prop
  | .array _, v => ∃ items, v = .arr items
  | .object _, v => ∃ entries, v = .obj entries
  | f, v => f.Conforms v

/-- The kind of values that a declared type asks for. -/
def expected : FormField → String
  | .string => "string"
  | .integer => "integer"
  | .float => "number"
  | .boolean => "boolean"
  | .array _ => "array"
  | .object _ => "object"

/-- A position is at fault, and this is wrong there. The value may be missing. -/
inductive FaultyAt : FormField → Option Json → List Segment → String → Prop
  | missing (f : FormField) : FaultyAt f none [] "Required field missing"
  | mismatch {f : FormField} {v : Json} (unlike : ¬ f.Suits v) :
    FaultyAt f (some v) [] ("Expected " ++ f.expected ++ ", got " ++ v.kind)
  | item {element : FormField} {items : List Json} {i : Nat} {v : Json} {p : List Segment}
    {reason : String} (there : items[i]? = some v) (faulty : FaultyAt element (some v) p reason) :
    FaultyAt (.array element) (some (.arr items)) (.item i :: p) reason
  | entry {fields : List (String × FormField)} {entries : List (String × Json)} {k : String}
    {f : FormField} {p : List Segment} {reason : String} (declared : (k, f) ∈ fields)
    (faulty : FaultyAt f (Entries.get? k entries) p reason) :
    FaultyAt (.object fields) (some (.obj entries)) (.entry k :: p) reason

/-- The first position that is at fault, and what is wrong there. -/
structure FirstFault (f : FormField) (v : Option Json) (p : List Segment) (reason : String) :
    Prop where
  faulty : f.FaultyAt v p reason
  first : ∀ q other, f.FaultyAt v q other → q = p ∨ List.Lex Segment.Before p q

variable {f : FormField} {v : Json} {o : Option Json} {fault : FormFault}
  {entries : List (String × Json)} {fs : List (String × FormField)}

/-! ## What a check finds -/

theorem expect_of_not {ok : Bool} (fails : ¬ ok = true) (what : String) :
    expect ok what v = some (.mismatch what v.kind) := by
  rw [expect, if_neg fails]

theorem check_of_not_suits (unlike : ¬ f.Suits v) :
    f.check v = some (.mismatch f.expected v.kind) := by
  cases f with
  | string => exact expect_of_not (mt conforms_string_iff.mp unlike) _
  | boolean => exact expect_of_not (mt conforms_boolean_iff.mp unlike) _
  | float => exact expect_of_not (mt conforms_float_iff.mp unlike) _
  | integer => exact expect_of_not (mt conforms_integer_iff.mp unlike) _
  | array e =>
    cases v with
    | arr items => exact absurd ⟨items, rfl⟩ unlike
    | null | bool | int | float | str | obj => rfl
  | object fs =>
    cases v with
    | obj entries => exact absurd ⟨entries, rfl⟩ unlike
    | null | bool | int | float | str | arr => rfl

theorem FaultyAt.fault?_ne_none {p : List Segment} {reason : String}
    (h : f.FaultyAt o p reason) : f.fault? o ≠ none := by
  induction h with
  | missing f => exact nofun
  | mismatch unlike =>
    show check _ _ ≠ none
    rw [check_of_not_suits unlike]
    exact nofun
  | item there _ ih =>
    intro faultless
    exact ih (firstItem_eq_none_iff.mp faultless _ (List.mem_of_getElem? there))
  | entry declared _ ih =>
    intro faultless
    exact ih (checkEntries_eq_none_iff.mp faultless _ declared)

theorem exists_of_firstItem {check : Json → Option FormFault} {n : Nat} {items : List Json}
    (found : firstItem check n items = some fault) :
    ∃ i v inner, items[i]? = some v ∧ check v = some inner ∧ fault = .item (n + i) inner ∧
      ∀ j < i, ∀ u, items[j]? = some u → check u = none := by
  induction items generalizing n with
  | nil => cases found
  | cons v vs ih =>
    cases here : check v with
    | some inner =>
      rw [firstItem, here] at found
      cases found
      exact ⟨0, v, inner, rfl, here, rfl, fun j lt => absurd lt (Nat.not_lt_zero j)⟩
    | none =>
      rw [firstItem, here] at found
      obtain ⟨i, u, inner, there, faulty, rfl, earlier⟩ := ih found
      have place : n + 1 + i = n + (i + 1) := Nat.add_right_comm n 1 i
      refine ⟨i + 1, u, inner, there, faulty, by rw [place], fun j lt w item => ?_⟩
      cases j with
      | zero =>
        cases item
        exact here
      | succ j => exact earlier j (Nat.lt_of_succ_lt_succ lt) w item

theorem exists_of_checkEntries (ascending : Entries.Ascending fs)
    (found : checkEntries fs entries = some fault) :
    ∃ k f inner, (k, f) ∈ fs ∧ f.fault? (Entries.get? k entries) = some inner ∧
      fault = .entry k inner ∧
      ∀ e ∈ fs, e.1 < k → e.2.fault? (Entries.get? e.1 entries) = none := by
  induction fs with
  | nil => cases found
  | cons e fs ih =>
    obtain ⟨least, ascending⟩ := List.pairwise_cons.mp ascending
    rw [checkEntries_cons] at found
    cases here : e.2.fault? (Entries.get? e.1 entries) with
    | some inner =>
      rw [here] at found
      cases found
      refine ⟨e.1, e.2, inner, List.mem_cons_self, here, rfl, ?_⟩
      intro e' mem lt
      rcases List.mem_cons.mp mem with rfl | mem
      · exact absurd lt (String.lt_irrefl _)
      · exact absurd (String.lt_trans lt (least e' mem)) (String.lt_irrefl _)
    | none =>
      rw [here] at found
      obtain ⟨k, f, inner, mem, faulty, rfl, earlier⟩ := ih ascending found
      refine ⟨k, f, inner, List.mem_cons_of_mem _ mem, faulty, rfl, ?_⟩
      exact List.forall_mem_cons.mpr ⟨fun _ => here, earlier⟩

theorem firstFault_of_not_suits (unlike : ¬ f.Suits v) :
    f.FirstFault (some v) [] ("Expected " ++ f.expected ++ ", got " ++ v.kind) := by
  refine ⟨.mismatch unlike, fun q other faulty => .inl ?_⟩
  cases faulty with
  | mismatch => rfl
  | item => exact absurd ⟨_, rfl⟩ unlike
  | entry => exact absurd ⟨_, rfl⟩ unlike

theorem FirstFault.item {element : FormField} {items : List Json} {i : Nat} {p : List Segment}
    {reason : String} (h : element.FirstFault (some v) p reason) (there : items[i]? = some v)
    (earlier : ∀ j < i, ∀ u, items[j]? = some u → element.check u = none) :
    (array element).FirstFault (some (.arr items)) (.item i :: p) reason := by
  refine ⟨.item there h.faulty, fun q other faulty => ?_⟩
  cases faulty with
  | mismatch unlike => exact absurd ⟨_, rfl⟩ unlike
  | @item _ _ j u q _ place faulty =>
    rcases Nat.lt_trichotomy j i with lt | rfl | gt
    · exact absurd (earlier j lt u place) faulty.fault?_ne_none
    · obtain rfl : v = u := Option.some.inj (there.symm.trans place)
      rcases h.first q _ faulty with rfl | later
      · exact .inl rfl
      · exact .inr (.cons later)
    · exact .inr (.rel (.item gt))

theorem FirstFault.entry {k : String} {p : List Segment} {reason : String}
    (h : f.FirstFault (Entries.get? k entries) p reason) (ascending : Entries.Ascending fs)
    (declared : (k, f) ∈ fs)
    (earlier : ∀ e ∈ fs, e.1 < k → e.2.fault? (Entries.get? e.1 entries) = none) :
    (object fs).FirstFault (some (.obj entries)) (.entry k :: p) reason := by
  refine ⟨.entry declared h.faulty, fun q other faulty => ?_⟩
  cases faulty with
  | mismatch unlike => exact absurd ⟨_, rfl⟩ unlike
  | @entry _ _ l g q _ mem faulty =>
    rcases Std.lt_trichotomy l k with lt | rfl | gt
    · exact absurd (earlier _ mem lt) faulty.fault?_ne_none
    · have same := ascending.get?_eq_some_iff.mpr declared
      rw [ascending.get?_eq_some_iff.mpr mem] at same
      cases same
      rcases h.first q _ faulty with rfl | later
      · exact .inl rfl
      · exact .inr (.cons later)
    · exact .inr (.rel (.entry gt))

theorem firstFault_of_suits (within : ∀ v fault, f.Suits v → f.check v = some fault →
      f.FirstFault (some v) fault.position fault.reason)
    (found : f.fault? o = some fault) : f.FirstFault o fault.position fault.reason := by
  cases o with
  | none =>
    cases found
    refine ⟨.missing f, fun q other faulty => .inl ?_⟩
    cases faulty
    rfl
  | some v =>
    by_cases suits : f.Suits v
    · exact within v fault suits found
    · have itself := check_of_not_suits suits
      cases itself.symm.trans found
      exact firstFault_of_not_suits suits

/-- **What a check finds is the first fault**, if the fields of objects ascend. -/
theorem firstFault_of_fault? (ordered : f.Ordered) (found : f.fault? o = some fault) :
    f.FirstFault o fault.position fault.reason := by
  induction ordered generalizing o fault with
  | string | integer | float | boolean =>
    refine firstFault_of_suits (fun v fault suits found => ?_) found
    rw [check_eq_none_iff.mpr suits] at found
    cases found
  | array _ ih =>
    refine firstFault_of_suits (fun v fault suits found => ?_) found
    obtain ⟨items, rfl⟩ := suits
    obtain ⟨i, u, inner, there, faulty, rfl, earlier⟩ := exists_of_firstItem found
    rw [Nat.zero_add]
    exact (ih (o := some u) faulty).item there earlier
  | object ascending _ ih =>
    refine firstFault_of_suits (fun v fault suits found => ?_) found
    obtain ⟨entries, rfl⟩ := suits
    obtain ⟨k, f, inner, declared, faulty, rfl, earlier⟩ := exists_of_checkEntries ascending found
    exact (ih (k, f) declared faulty).entry ascending declared earlier

end FormField

/-! ## Forms that are read -/

theorem Decoder.exists_of_mapM {α : Type} {read : Document → Option α}
    {members : List (Option String × Document)} {es : List (String × α)}
    (h : (members.mapM fun (m : Option String × Document) => do
      let k ← m.1
      let v ← read m.2
      return (k, v)) = some es) : ∀ e ∈ es, ∃ d, read d = some e.2 := by
  induction members generalizing es with
  | nil =>
    cases h
    exact nofun
  | cons m members ih =>
    simp only [List.mapM_cons, Option.bind_eq_bind, Option.pure_def, Option.bind_eq_some_iff,
      Option.some.injEq] at h
    obtain ⟨_, ⟨k, -, v, value, rfl⟩, rest, others, rfl⟩ := h
    exact List.forall_mem_cons.mpr ⟨⟨m.2, value⟩, ih others⟩

namespace FormField

variable {f : FormField}

theorem ordered_of_plain? {name : String} (h : plain? name = some f) : f.Ordered := by
  unfold plain? at h
  split_ifs at h <;> cases h
  · exact .string
  · exact .integer
  · exact .float
  · exact .boolean

theorem ordered_of_readObject {readOne : Document → Option FormField} {d : Document}
    (each : ∀ d f, readOne d = some f → f.Ordered) (h : readObject readOne d = some f) :
    f.Ordered := by
  unfold readObject at h
  split at h
  · obtain ⟨fs, read, rfl⟩ := Option.map_eq_some_iff.mp h
    refine .object (.ofList fs) fun e mem => ?_
    obtain ⟨e', mem', same⟩ := Entries.mem_ofList mem
    obtain ⟨d, value⟩ := Decoder.exists_of_mapM read e' mem'
    exact each d _ (same ▸ value)
  · cases h

theorem ordered_of_read {depth : Nat} {inner : Bool} {d : Document}
    (h : read depth inner d = some f) : f.Ordered := by
  fun_induction read depth inner d generalizing f with
  | case1 depth inner members ih =>
    simp only [Option.bind_eq_bind, Option.bind_eq_some_iff] at h
    obtain ⟨_, -, _, -, name, -, h⟩ := h
    split at h
    · next plain =>
      cases h
      exact ordered_of_plain? plain
    · split_ifs at h
      · simp only [Option.bind_eq_some_iff] at h
        obtain ⟨_, -, d, -, element, read, h⟩ := h
        cases h
        exact .array (ih d read)
      · simp only [Option.bind_eq_some_iff] at h
        obtain ⟨_, -, d, -, h⟩ := h
        exact ordered_of_readObject (fun d f => ih d) h
  | case2 depth inner t rest ih =>
    simp only [Option.bind_eq_bind, Option.bind_eq_some_iff] at h
    obtain ⟨name, -, h⟩ := h
    split at h
    · next plain =>
      cases h
      exact ordered_of_plain? plain
    · split_ifs at h
      · obtain ⟨element, read, h⟩ := Option.bind_eq_some_iff.mp h
        cases h
        exact .array (ih _ read)
      · exact ordered_of_readObject (fun d f => ih d) h
    · cases h
  | case3 => cases h

end FormField

theorem FormSchema.ordered_of_decoder {s : FormSchema} {depth : Nat} {d : Document}
    (h : decoder depth d = some s) : s.Ordered := by
  unfold decoder Decoder.dict at h
  split at h
  · obtain ⟨es, read, rfl⟩ := Option.map_eq_some_iff.mp h
    intro e mem
    obtain ⟨e', mem', same⟩ := Entries.mem_ofList mem
    obtain ⟨d, value⟩ := Decoder.exists_of_mapM read e' mem'
    obtain ⟨_, -, field⟩ := Option.bind_eq_some_iff.mp value
    exact same ▸ FormField.ordered_of_read field
  · cases h

/-! ## The errors of an input -/

namespace FormSchema

variable {s : FormSchema} {input : Record}

theorem mem_check {e : FieldError} :
    e ∈ s.check input ↔ ∃ name f fault, s.get? name = some f ∧
      f.fault? (input.get? name) = some fault ∧ e = ⟨name, fault.message, [name]⟩ := by
  simp only [check, List.mem_filterMap, Option.map_eq_some_iff, FormField.checkIn_eq]
  constructor
  · rintro ⟨⟨name, f⟩, declared, fault, found, rfl⟩
    exact ⟨name, f, fault, s.ascending.get?_eq_some_iff.mpr declared, found, rfl⟩
  · rintro ⟨name, f, fault, declared, found, rfl⟩
    exact ⟨(name, f), s.ascending.get?_eq_some_iff.mp declared, fault, found, rfl⟩

theorem pairwise_check (s : FormSchema) (input : Record) :
    ((s.check input).map (·.field)).Pairwise (· < ·) := by
  rw [check, List.map_filterMap]
  refine s.ascending.filterMap _ fun a b lt name given name' given' => ?_
  simp only [Option.map_map, Option.map_eq_some_iff] at given given'
  obtain ⟨fault, -, rfl⟩ := given
  obtain ⟨fault', -, rfl⟩ := given'
  exact lt

theorem check_congr {other : Record} (same : ∀ name ∈ s.keys, other.get? name = input.get? name) :
    s.check other = s.check input := by
  refine List.filterMap_congr fun e mem => ?_
  rw [FormField.checkIn_eq, FormField.checkIn_eq, same e.1 (List.mem_map_of_mem mem)]

/-- **The errors of an input.** There is one error for each declared field, by ascending name, whose
value is missing or does not conform, and none for any other. Its message leads to the first
position of the value that is at fault and says what is wrong there. Only the declared fields of the
input count. -/
theorem check_first_faults (ordered : s.Ordered) (input : Record) :
    ((s.check input).map (·.field)).Pairwise (· < ·) ∧
    (∀ name, name ∈ (s.check input).map (·.field) ↔
      ∃ f, s.get? name = some f ∧ ¬ ∃ v, input.get? name = some v ∧ f.Conforms v) ∧
    (∀ e ∈ s.check input, e.path = [e.field] ∧
      ∃ f p reason, s.get? e.field = some f ∧ f.FirstFault (input.get? e.field) p reason ∧
        e.message = Segment.chain p ++ reason) ∧
    ∀ other : Record, (∀ name ∈ s.keys, other.get? name = input.get? name) →
      s.check other = s.check input := by
  refine ⟨pairwise_check s input, fun name => ?_, fun e mem => ?_, fun other => check_congr⟩
  · simp only [List.mem_map, mem_check, ← FormField.fault?_eq_none_iff, Option.ne_none_iff_exists']
    constructor
    · rintro ⟨_, ⟨name, f, fault, declared, found, rfl⟩, rfl⟩
      exact ⟨f, declared, fault, found⟩
    · rintro ⟨f, declared, fault, found⟩
      exact ⟨_, ⟨name, f, fault, declared, found, rfl⟩, rfl⟩
  · obtain ⟨name, f, fault, declared, found, rfl⟩ := mem_check.mp mem
    have each : f.Ordered := ordered (name, f) (s.ascending.get?_eq_some_iff.mp declared)
    exact ⟨rfl, f, fault.position, fault.reason, declared,
      FormField.firstFault_of_fault? each found, fault.message_eq⟩

/-- A form with rows of rows and an object. -/
def gridForm : FormSchema where
  entries := [("cfg", .object [("name", .string), ("width", .integer)]), ("on", .boolean),
    ("rows", .array (.array .integer))]
  ascending := by decide

/-- An input with two faults in `cfg` and in `rows`, without `on` and with a field of its own. -/
def brokenGrid : Record where
  entries := [("cfg", .obj [("width", .str "wide")]), ("more", .null),
    ("rows", .arr [.arr [.int 0], .arr [.int 1, .null, .bool true]])]
  ascending := by decide

/-- The faults that come first are told, and the field of its own is not looked at. -/
theorem check_first_faults_brokenGrid :
    Ordered gridForm ∧
    (gridForm.check brokenGrid).map (·.message) =
      ["name: Required field missing", "Required field missing",
        "[1]: [1]: Expected integer, got null"] ∧
    (∀ e ∈ gridForm.check brokenGrid, e.path = [e.field] ∧
      ∃ f p reason, gridForm.get? e.field = some f ∧
        f.FirstFault (brokenGrid.get? e.field) p reason ∧ e.message = Segment.chain p ++ reason) ∧
    gridForm.check (brokenGrid.erase "more") = gridForm.check brokenGrid := by
  have ordered : Ordered gridForm := by
    refine List.forall_mem_cons.mpr ⟨.object (by decide) ?_,
      List.forall_mem_cons.mpr ⟨.boolean, List.forall_mem_singleton.mpr (.array (.array .integer))⟩⟩
    exact List.forall_mem_cons.mpr ⟨.string, List.forall_mem_singleton.mpr .integer⟩
  obtain ⟨-, -, told, only⟩ := check_first_faults ordered brokenGrid
  refine ⟨ordered, by decide, told, only _ (List.forall_mem_cons.mpr ⟨rfl, ?_⟩)⟩
  exact List.forall_mem_cons.mpr ⟨rfl, List.forall_mem_singleton.mpr rfl⟩

end FormSchema

end Cadence
