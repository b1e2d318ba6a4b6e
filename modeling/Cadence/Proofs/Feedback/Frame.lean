import Cadence.Proofs.Feedback.Lens

/-!
# What a write leaves alone

Two paths diverge where their next segments name different children of one node. A segment names an
element of an array by its index, which has many spellings, and a field of an object by its text; so
it depends on the record whether paths diverge. A write changes nothing that diverges from its path.

* `Json.SameChild`, `Json.Diverge`: segments that name one child, and paths that part;
* `Json.diverge_of_prefix`: paths that part behind a common beginning;
* `Json.Indexes`: a path whose segments at arrays are indices;
* `Json.lookup?_assign_of_diverge`: a path that diverges from a write reads what it read before;
* `Json.lookup?_assign_prefix`, `Json.exists_setChild_arr`: what becomes of the nodes on the way,
  and of the length of an array;
* **`Record.assign_frame`**: the same for records.
-/

namespace Cadence

namespace Json

/-! ## Paths that diverge -/

/-- The child that a segment names, of a node that may be missing. -/
def childAt? (node : Option Json) (s : String) : Option Json := node.bind (·.child? s)

/-- Two segments name the same child of a node, whether it is there or not: at an array they are the
same index, and elsewhere they are equal. -/
def SameChild (node : Option Json) (s t : String) : Prop :=
  match node with
  | some (.arr _) => Path.index? s = Path.index? t
  | _ => s = t

/-- Two paths from a node, which may be missing, diverge: after segments that name the same children
come segments that name different ones. -/
inductive Diverge : Option Json → List String → List String → Prop
  | here {node : Option Json} {s t : String} (ss ts : List String)
      (apart : ¬ SameChild node s t) : Diverge node (s :: ss) (t :: ts)
  | later {node : Option Json} {s t : String} {ss ts : List String} (same : SameChild node s t)
      (rest : Diverge (childAt? node s) ss ts) : Diverge node (s :: ss) (t :: ts)

/-- Every segment of the path that comes to an array is an index. -/
def Indexes (v : Json) (p : List String) : Prop :=
  ∀ front s back, p = front ++ s :: back → ∀ items, v.lookup? front = some (.arr items) →
    (Path.index? s).isSome = true

variable {v w c : Json} {s t : String} {ss ts p q : List String}

theorem sameChild_self (node : Option Json) (s : String) : SameChild node s s := by
  unfold SameChild
  split <;> rfl

theorem diverge_of_prefix {node : Option Json} (front : List String)
    (apart : ¬ SameChild (node.bind (lookup? front)) s t) :
    Diverge node (front ++ s :: ss) (front ++ t :: ts) := by
  induction front generalizing node with
  | nil =>
    refine .here ss ts ?_
    cases node <;> exact apart
  | cons f front ih =>
    refine .later (sameChild_self node f) (ih ?_)
    rw [childAt?, Option.bind_assoc]
    rwa [funext (lookup?_cons f front)] at apart

theorem indexes_cons : v.Indexes (s :: ss) ↔
    (∀ items, v = .arr items → (Path.index? s).isSome = true) ∧
      ∀ c, v.child? s = some c → c.Indexes ss := by
  constructor
  · intro h
    refine ⟨fun items eq => h [] s ss rfl items (congrArg some eq), ?_⟩
    rintro c child front t back rfl items found
    refine h (s :: front) t back rfl items ?_
    rw [lookup?_cons, child]
    exact found
  · rintro ⟨head, tail⟩ front t back eq items found
    cases front with
    | nil =>
      obtain ⟨rfl, rfl⟩ := List.cons.inj eq
      exact head items (Option.some.inj found)
    | cons f front =>
      obtain ⟨rfl, rfl⟩ := List.cons.inj eq
      rw [lookup?_cons] at found
      obtain ⟨c, child, found⟩ := Option.bind_eq_some_iff.mp found
      exact tail c child front t back rfl items found

theorem Indexes.exists_index {items : List Json} (h : (Json.arr items).Indexes (s :: ss)) :
    ∃ i, Path.index? s = some i :=
  Option.isSome_iff_exists.mp ((indexes_cons.mp h).1 items rfl)

theorem indexes_null (p : List String) : Json.null.Indexes p := by
  rintro front s back - items found
  cases front with
  | nil => cases found
  | cons f front => cases found

theorem Indexes.childAt {node : Option Json} (h : (node.getD .null).Indexes (s :: ss)) :
    ((childAt? node s).getD .null).Indexes ss := by
  cases node with
  | none => exact indexes_null ss
  | some v =>
    show ((v.child? s).getD .null).Indexes ss
    cases child : v.child? s with
    | none => exact indexes_null ss
    | some c => exact (indexes_cons.mp h).2 c child

/-! ## One child -/

theorem child?_of_sameChild (same : SameChild (some v) s t) : v.child? t = v.child? s := by
  cases v with
  | null | bool | int | float | str => rfl
  | obj fields => exact congrArg (Entries.get? · fields) (Eq.symm same)
  | arr items => exact congrArg (Option.bind · (items[·]?)) (Eq.symm same)

theorem exists_setChild_arr (items : List Json) (c : Json) {i : Nat}
    (index : Path.index? s = some i) :
    ∃ items', (Json.arr items).setChild s c = .arr items' ∧
      items'.length = (if i = items.length then items.length + 1 else items.length) ∧
      ∀ j, j ≠ i → items'[j]? = items[j]? := by
  by_cases within : i < items.length
  · refine ⟨items.set i c, by simp [setChild, index, within], ?_, fun j ne => ?_⟩
    · rw [List.length_set, if_neg (Nat.ne_of_lt within)]
    · exact List.getElem?_set_ne ne.symm
  · by_cases last : i = items.length
    · refine ⟨items ++ [c], by simp [setChild, index, last], by simp [last], fun j ne => ?_⟩
      rcases Nat.lt_trichotomy j items.length with lt | eq | gt
      · exact List.getElem?_append_left lt
      · exact absurd (eq.trans last.symm) ne
      · rw [List.getElem?_eq_none (Nat.le_of_lt gt), List.getElem?_eq_none]
        rw [List.length_append]
        exact gt
    · exact ⟨items, by simp [setChild, index, within, last], by rw [if_neg last], fun _ _ => rfl⟩

theorem child?_setChild_of_apart {node : Option Json} (apart : ¬ SameChild node s t)
    (fits : (node.getD .null).Indexes (s :: ss)) :
    ((node.getD .null).setChild s c).child? t = childAt? node t := by
  have fresh (ne : s ≠ t) : (Json.obj [(s, c)]).child? t = none := by
    simp [child?, Entries.get?, ne]
  rcases node with _ | v
  · exact fresh apart
  · cases v with
    | null | bool | int | float | str => exact fresh apart
    | obj fields =>
      have ne : s ≠ t := apart
      exact (Entries.get?_insert s t c fields).trans (if_neg ne)
    | arr items =>
      obtain ⟨i, index⟩ := fits.exists_index
      obtain ⟨items', eq, -, others⟩ := exists_setChild_arr items c index
      show ((Json.arr items).setChild s c).child? t = (Path.index? t).bind (items[·]?)
      rw [eq]
      refine Option.bind_congr fun j index' => others j ?_
      rintro rfl
      exact apart (index.trans index'.symm)

theorem SameChild.setChild {node : Option Json} (same : SameChild node s t)
    (fits : (node.getD .null).Indexes (s :: ss)) :
    SameChild (some ((node.getD .null).setChild s c)) s t := by
  rcases node with _ | v
  · exact same
  · cases v with
    | null | bool | int | float | str => exact same
    | obj fields => exact same
    | arr items =>
      obtain ⟨i, index⟩ := fits.exists_index
      obtain ⟨items', eq, -, -⟩ := exists_setChild_arr items c index
      show SameChild (some ((Json.arr items).setChild s c)) s t
      rw [eq]
      exact same

/-! ## Paths -/

/-- **A write changes nothing that diverges from its path.** -/
theorem lookup?_assign_of_diverge (w : Json) {node : Option Json} (h : Diverge node p q)
    (fits : (node.getD .null).Indexes p) :
    (assign w p (node.getD .null)).lookup? q = node.bind (lookup? q) := by
  induction h with
  | @here node s t ss ts apart =>
    rw [assign_cons, lookup?_cons, child?_setChild_of_apart apart fits, childAt?, Option.bind_assoc]
    rw [funext (lookup?_cons t ts)]
  | @later node s t ss ts same rest ih =>
    have down : node.bind (lookup? (t :: ts)) = (childAt? node s).bind (lookup? ts) := by
      rw [funext (lookup?_cons t ts), childAt?, Option.bind_assoc]
      refine Option.bind_congr fun v at_ => ?_
      subst at_
      rw [child?_of_sameChild same]
    have old : ((node.getD .null).child? s) = childAt? node s := by cases node <;> rfl
    rw [assign_cons, lookup?_cons, child?_of_sameChild (same.setChild fits), down, old]
    by_cases behind : (node.getD .null).Behind s
    · obtain ⟨missing, kept⟩ := behind.ignored (c := assign w ss ((childAt? node s).getD .null))
      rw [kept, missing, ← old, missing]
    · rw [child?_setChild behind]
      exact ih fits.childAt

theorem lookup?_assign_prefix (w : Json) (front : List String) {u : Json}
    (reach : v.lookup? front = some u) :
    (assign w (front ++ s :: ss) v).lookup? front =
      some (u.setChild s (assign w ss ((u.child? s).getD .null))) := by
  induction front generalizing v with
  | nil =>
    obtain rfl := Option.some.inj reach
    rw [List.nil_append, assign_cons]
    rfl
  | cons f front ih =>
    rw [lookup?_cons] at reach
    obtain ⟨x, child, found⟩ := Option.bind_eq_some_iff.mp reach
    have within : ¬ v.Behind f := fun behind => by
      rw [(behind.ignored (c := v)).1] at child
      cases child
    rw [List.cons_append, assign_cons, lookup?_cons, child?_setChild within, child]
    exact ih found

end Json

/-! ## Records -/

namespace Record

/-- Two paths diverge in a record. -/
def Diverge (r : Record) (p q : Path) : Prop :=
  Json.Diverge (some (.ofRecord r)) p.segments q.segments

/-- Every segment of the path that comes to an array of the record is an index. -/
def Indexes (r : Record) (p : Path) : Prop := (Json.ofRecord r).Indexes p.segments

/-- **A write touches only its own path.** If every segment that comes to an array is an index, then
paths that diverge from the written one read what they read before. On the way, an array keeps all
its items but the one at the index, and it keeps its length, unless the index is that length, where
it grows by one; an object keeps all its fields but the one that is named. -/
theorem assign_frame {r : Record} {p : Path} (fits : r.Indexes p) (w : Json) :
    (∀ q, r.Diverge p q → (r.assign p w).lookup? q = r.lookup? q) ∧
      ∀ front s back, p.segments = front ++ s :: back →
        (∀ items, (Json.ofRecord r).lookup? front = some (.arr items) →
          ∃ items', (Json.ofRecord (r.assign p w)).lookup? front = some (.arr items') ∧
            items'.length =
              (if Path.index? s = some items.length then items.length + 1 else items.length) ∧
            ∀ i, Path.index? s ≠ some i → items'[i]? = items[i]?) ∧
        ∀ fields, (Json.ofRecord r).lookup? front = some (.obj fields) →
          ∃ fields', (Json.ofRecord (r.assign p w)).lookup? front = some (.obj fields') ∧
            ∀ k, k ≠ s → Entries.get? k fields' = Entries.get? k fields := by
  refine ⟨fun q apart => Json.lookup?_assign_of_diverge w apart fits, ?_⟩
  intro front s back eq
  rw [ofRecord_assign, eq]
  refine ⟨fun items found => ?_, fun fields found => ?_⟩
  · obtain ⟨i, index⟩ := Option.isSome_iff_exists.mp (fits front s back eq items found)
    obtain ⟨items', set, length, others⟩ := Json.exists_setChild_arr items
      (Json.assign w back (((Json.arr items).child? s).getD .null)) index
    refine ⟨items', ?_, ?_, fun j ne => others j ?_⟩
    · rw [Json.lookup?_assign_prefix w front found, set]
    · simpa [index] using length
    · rintro rfl
      exact ne index
  · refine ⟨_, Json.lookup?_assign_prefix w front found, fun k ne => ?_⟩
    exact (Entries.get?_insert s k _ fields).trans (if_neg ne.symm)

/-- A record with two rows. -/
def twoRows : Record := Dict.ofList
  [("label", .str "x"), ("rows", .arr [.arr [.int 0, .int 1], .arr [.int 1, .int 0]])]

/-- A write behind the last item of the second row. The items of that row are read as before,
however its index is spelled; there are still two rows, and this one has a third item. -/
theorem assign_frame_twoRows :
    let p := Path.ofText "rows.01.2"
    let q := Path.ofText "rows.+1.0"
    let q' := Path.ofText "rows.01.1"
    let written := twoRows.assign p (.int 9)
    twoRows.Indexes p ∧ (twoRows.Diverge p q ∧ written.lookup? q = some (.int 1)) ∧
      (twoRows.Diverge p q' ∧ written.lookup? q' = some (.int 0)) ∧
      (∃ items, (Json.ofRecord written).lookup? ["rows"] = some (.arr items) ∧ items.length = 2) ∧
      ∃ items, (Json.ofRecord written).lookup? ["rows", "01"] = some (.arr items) ∧
        items.length = 3 := by
  intro p q q' written
  have index : Path.index? "01" = some 1 ∧ Path.index? "+1" = some 1 ∧ Path.index? "2" = some 2 ∧
      Path.index? "0" = some 0 ∧ Path.index? "1" = some 1 := by decide +kernel
  have fits : twoRows.Indexes p := by
    show (Json.ofRecord twoRows).Indexes ["rows", "01", "2"]
    refine Json.indexes_cons.mpr ⟨nofun, fun rows named => ?_⟩
    obtain rfl := Option.some.inj named
    refine Json.indexes_cons.mpr ⟨fun _ _ => by rw [index.1]; rfl, fun row named => ?_⟩
    obtain rfl := Option.some.inj named
    refine Json.indexes_cons.mpr ⟨fun _ _ => by rw [index.2.2.1]; rfl, fun _ named => ?_⟩
    cases named
  have apart : twoRows.Diverge p q := by
    show Json.Diverge (some (.ofRecord twoRows)) ["rows", "01", "2"] ["rows", "+1", "0"]
    refine .later rfl (.later ?_ (.here _ _ ?_))
    · exact index.1.trans index.2.1.symm
    · show Path.index? "2" ≠ Path.index? "0"
      rw [index.2.2.1, index.2.2.2.1]
      decide
  have apart' : twoRows.Diverge p q' := by
    refine Json.diverge_of_prefix ["rows", "01"] ?_
    show Path.index? "2" ≠ Path.index? "1"
    rw [index.2.2.1, index.2.2.2.2]
    decide
  obtain ⟨others, nodes⟩ := assign_frame fits (.int 9)
  refine ⟨fits, ⟨apart, (others q apart).trans rfl⟩, ⟨apart', (others q' apart').trans rfl⟩, ?_, ?_⟩
  · obtain ⟨items, found, length, -⟩ := (nodes ["rows"] "01" ["2"] rfl).1 _ rfl
    rw [index.1] at length
    exact ⟨items, found, length⟩
  · obtain ⟨items, found, length, -⟩ := (nodes ["rows", "01"] "2" [] rfl).1 _ rfl
    rw [index.2.2.1] at length
    exact ⟨items, found, length⟩

end Record

end Cadence
