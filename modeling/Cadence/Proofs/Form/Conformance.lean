import Cadence.Form.Check
import Mathlib.Algebra.Order.Field.Rat
import Mathlib.Algebra.Order.Field.Power
import Mathlib.Tactic.FieldSimp
import Mathlib.Tactic.Ring

/-!
# Conformance to a form

Whether a value conforms to a declared type is a matter of its shape: the kind of the value, and the
conformance of what is within it. A check finds no fault exactly in the values that conform.

* `Double.value`: the rational number of a double;
* **`Double.isIntegral_iff`**: doubles without a fraction;
* `FormField.Conforms`: values of a declared type;
* `FormField.fault?`: the fault of a value that may be missing;
* **`FormField.check_eq_none_iff`**: the values without a fault.
-/

namespace Cadence

/-! ## Doubles without a fraction -/

namespace Double

/-- The rational number of a finite double. -/
def value (x : Double) : ℚ :=
  (if x.isNegative then -1 else 1) * (x.significand * 2 ^ x.exponent)

theorem ratio_pos (x : Double) : 0 < x.ratio.2 := by
  unfold ratio
  split
  · exact Nat.one_pos
  · exact Nat.two_pow_pos _

theorem ratio_eq (x : Double) :
    (x.ratio.1 : ℚ) / x.ratio.2 = x.significand * 2 ^ x.exponent := by
  unfold ratio
  split
  · next nonneg =>
    obtain ⟨k, eq⟩ := Int.eq_ofNat_of_zero_le nonneg
    simp [eq]
  · next neg =>
    obtain ⟨k, eq⟩ := Int.eq_ofNat_of_zero_le (show 0 ≤ -x.exponent by omega)
    rw [eq, show x.exponent = -(k : ℤ) by omega]
    simp [div_eq_mul_inv]

theorem mod_eq_zero_iff {a b : Nat} (pos : 0 < b) :
    a % b = 0 ↔ ∃ n : ℤ, (a : ℚ) / b = n := by
  have nonzero : (b : ℚ) ≠ 0 := by exact_mod_cast pos.ne'
  rw [← Nat.dvd_iff_mod_eq_zero]
  constructor
  · rintro ⟨n, rfl⟩
    refine ⟨n, ?_⟩
    push_cast
    field_simp
  · rintro ⟨n, eq⟩
    have whole : (a : ℤ) = b * n := by
      rw [div_eq_iff nonzero] at eq
      rw [mul_comm]
      exact_mod_cast eq
    exact Int.natCast_dvd_natCast.mp ⟨n, whole⟩

/-- **Doubles without a fraction** are the finite ones whose number is an integer. -/
theorem isIntegral_iff (x : Double) :
    x.isIntegral = true ↔ x.isFinite = true ∧ ∃ n : ℤ, x.value = n := by
  have signed : (∃ n : ℤ, (x.ratio.1 : ℚ) / x.ratio.2 = n) ↔ ∃ n : ℤ, x.value = n := by
    rw [ratio_eq, value]
    split
    · constructor
      · rintro ⟨n, eq⟩
        exact ⟨-n, by rw [eq]; push_cast; ring⟩
      · rintro ⟨n, eq⟩
        exact ⟨-n, by push_cast; rw [← eq]; ring⟩
    · rw [one_mul]
  rw [isIntegral, Bool.and_eq_true, decide_eq_true_eq, mod_eq_zero_iff x.ratio_pos, signed]

end Double

/-! ## Values of a declared type -/

namespace FormField

theorem inductionOn {motive : FormField → Prop} (f : FormField) (string : motive .string)
    (integer : motive .integer) (float : motive .float) (boolean : motive .boolean)
    (array : ∀ e, motive e → motive (.array e))
    (object : ∀ fs, (∀ e ∈ fs, motive e.2) → motive (.object fs)) : motive f :=
  @FormField.rec motive (fun fs => ∀ e ∈ fs, motive e.2) (fun e => motive e.2) string integer
    float boolean array object nofun
    (fun _ _ first others => List.forall_mem_cons.mpr ⟨first, others⟩) (fun _ _ field => field) f

/-- A value conforms to a declared type. An object may have further keys. -/
inductive Conforms : FormField → Json → Prop
  | string (s : String) : Conforms .string (.str s)
  | boolean (b : Bool) : Conforms .boolean (.bool b)
  | number (n : Int) : Conforms .float (.int n)
  | float (x : Double) : Conforms .float (.float x)
  | integer (n : Int) : Conforms .integer (.int n)
  | whole {x : Double} {n : ℤ} (finite : x.isFinite = true) (whole : x.value = n) :
    Conforms .integer (.float x)
  | array {element : FormField} {items : List Json} (each : ∀ v ∈ items, Conforms element v) :
    Conforms (.array element) (.arr items)
  | object {fields : List (String × FormField)} {entries : List (String × Json)}
    (present : ∀ e ∈ fields, ∃ v, Entries.get? e.1 entries = some v)
    (each : ∀ e ∈ fields, ∀ v, Entries.get? e.1 entries = some v → Conforms e.2 v) :
    Conforms (.object fields) (.obj entries)

variable {f : FormField} {v : Json}

/-! ## Kinds -/

theorem conforms_string_iff : (v matches .str _) = true ↔ Conforms .string v := by
  constructor
  · intro text
    cases v with
    | str s => exact .string s
    | null | bool | int | float | arr | obj => cases text
  · rintro ⟨s⟩
    rfl

theorem conforms_boolean_iff : (v matches .bool _) = true ↔ Conforms .boolean v := by
  constructor
  · intro truth
    cases v with
    | bool b => exact .boolean b
    | null | int | float | str | arr | obj => cases truth
  · rintro ⟨b⟩
    rfl

theorem conforms_float_iff : v.isNumber = true ↔ Conforms .float v := by
  constructor
  · intro number
    cases v with
    | int n => exact .number n
    | float x => exact .float x
    | null | bool | str | arr | obj => cases number
  · rintro (_ | _ | n | x)
    · rfl
    · rfl

theorem conforms_integer_iff : v.isInteger = true ↔ Conforms .integer v := by
  constructor
  · intro integer
    cases v with
    | int n => exact .integer n
    | float x =>
      obtain ⟨finite, n, whole⟩ := x.isIntegral_iff.mp integer
      exact .whole finite whole
    | null | bool | str | arr | obj => cases integer
  · rintro (_ | _ | _ | _ | n | ⟨finite, whole⟩)
    · rfl
    · exact (Double.isIntegral_iff _).mpr ⟨finite, _, whole⟩

theorem expect_eq_none_iff {ok : Bool} {what : String} : expect ok what v = none ↔ ok = true := by
  cases ok <;> simp [expect]

/-! ## Items and fields -/

theorem firstItem_eq_none_iff {check : Json → Option FormFault} {i : Nat} {items : List Json} :
    firstItem check i items = none ↔ ∀ v ∈ items, check v = none := by
  induction items generalizing i with
  | nil => simp [firstItem]
  | cons v vs ih => cases found : check v <;> simp [firstItem, found, ih]

/-- The fault of a value that may be missing. -/
def fault? (f : FormField) : Option Json → Option FormFault
  | none => some .missing
  | some v => f.check v

theorem checkIn_eq (f : FormField) (name : String) (input : Record) :
    f.checkIn name input = f.fault? (input.get? name) := by
  unfold checkIn fault?
  rfl

variable {entries : List (String × Json)} {fs : List (String × FormField)}

theorem checkEntries_cons (e : String × FormField) :
    checkEntries (e :: fs) entries =
      match e.2.fault? (Entries.get? e.1 entries) with
      | some inner => some (.entry e.1 inner)
      | none => checkEntries fs entries := by
  obtain ⟨k, f⟩ := e
  rw [checkEntries]
  cases Entries.get? k entries <;> rfl

theorem checkEntries_eq_none_iff :
    checkEntries fs entries = none ↔
      ∀ e ∈ fs, e.2.fault? (Entries.get? e.1 entries) = none := by
  induction fs with
  | nil => simp [checkEntries]
  | cons e fs ih =>
    rw [checkEntries_cons, List.forall_mem_cons, ← ih]
    cases e.2.fault? (Entries.get? e.1 entries) <;> simp

/-- **A check finds no fault** exactly in the values that conform. -/
theorem check_eq_none_iff : f.check v = none ↔ f.Conforms v := by
  induction f using inductionOn generalizing v with
  | string => exact expect_eq_none_iff.trans conforms_string_iff
  | boolean => exact expect_eq_none_iff.trans conforms_boolean_iff
  | float => exact expect_eq_none_iff.trans conforms_float_iff
  | integer => exact expect_eq_none_iff.trans conforms_integer_iff
  | array element ih =>
    cases v with
    | arr items =>
      show firstItem element.check 0 items = none ↔ _
      rw [firstItem_eq_none_iff, forall₂_congr fun v _ => ih (v := v)]
      exact ⟨.array, fun | .array each => each⟩
    | null | bool | int | float | str | obj => exact iff_of_false nofun nofun
  | object fs ih =>
    cases v with
    | obj entries =>
      show checkEntries fs entries = none ↔ _
      rw [checkEntries_eq_none_iff]
      constructor
      · intro faultless
        refine .object (fun e mem => ?_) fun e mem v found => ?_
        · have here := faultless e mem
          cases found : Entries.get? e.1 entries with
          | none => rw [found] at here; cases here
          | some v => exact ⟨v, rfl⟩
        · have here := faultless e mem
          rw [found] at here
          exact (ih e mem).mp here
      · rintro (_ | _ | _ | _ | _ | _ | _ | ⟨present, each⟩) e mem
        obtain ⟨v, found⟩ := present e mem
        rw [found]
        exact (ih e mem).mpr (each e mem v found)
    | null | bool | int | float | str | arr => exact iff_of_false nofun nofun

theorem fault?_eq_none_iff {o : Option Json} :
    f.fault? o = none ↔ ∃ v, o = some v ∧ f.Conforms v := by
  cases o with
  | none => exact iff_of_false nofun nofun
  | some v =>
    show f.check v = none ↔ _
    rw [check_eq_none_iff]
    exact ⟨fun conforms => ⟨v, rfl, conforms⟩, fun | ⟨_, rfl, conforms⟩ => conforms⟩

end FormField

end Cadence
