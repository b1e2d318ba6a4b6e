import Cadence.Module.Basic
import Cadence.Word

/-!
# A catalogue of output functions

Small functions of a record that manifests can refer to: sums and counters, a Fibonacci pair,
projections of the record, halving and doubling, and functions that fail or panic on purpose.

* `Catalogue.lookup?`: the function of a name.
-/

namespace Cadence.Catalogue

/-- The field `k`, if it is an integer in the range of a signed word. -/
def int? (r : Record) (k : String) : Option Int := (r.get? k).bind Json.int?

/-- An integer result, or an overflow. -/
def checked (n : Int) : Except CallFault Json :=
  if Word.isSigned n then .ok (.int n) else .error (.failed "overflow")

/-- The field `k`, or null. -/
def fieldOrNull (r : Record) (k : String) : Json := (r.get? k).getD .null

/-- The field `k`, or a failure that names it. -/
def intOrFail (r : Record) (k : String) : Except CallFault Int :=
  match int? r k with
  | some n => .ok n
  | none => .error (.failed (k ++ " missing"))

/-- The sum of `a` and `b`. -/
def add : OutputFn := fun r => do
  let a ← intOrFail r "a"
  let b ← intOrFail r "b"
  checked (a + b)

/-- One more than `count`, which starts at zero. -/
def inc : OutputFn := fun r => checked ((int? r "count").getD 0 + 1)

/-- One more than `count` while that is below five. -/
def incToFive : OutputFn := fun r => do
  let n ← intOrFail r "count"
  if 5 ≤ n then .error (.failed "overflow") else .ok (.int (n + 1))

/-- The next number of a Fibonacci pair. -/
def fibNext : OutputFn := fun r =>
  .ok (.int (Word.wrapped ((int? r "a").getD 0 + (int? r "b").getD 0)))

/-- The later number of a Fibonacci pair. -/
def fibPrev : OutputFn := fun r => .ok (.int ((int? r "b").getD 0))

/-- The field `rows`. -/
def rows : OutputFn := fun r =>
  match r.get? "rows" with
  | some v => .ok v
  | none => .error (.failed "rows missing")

/-- Two cells counted from `count`, with the step as a remark. -/
def grid : OutputFn := fun r =>
  let n := (int? r "count").getD 0
  .ok (.obj [("cells", .arr [.int n, .int (Word.wrapped (n + 1))]),
    ("meta", .obj [("step", fieldOrNull r "step")])])

/-- A function of the number `x`, which is zero if it is no number. -/
def onDouble (f : Double → Option Double) : OutputFn := fun r =>
  .ok (Json.ofDouble? (f (((r.get? "x").bind Json.double?).getD ⟨0⟩)))

/-- Fail with the text of `message`. -/
def fail : OutputFn := fun r =>
  .error (.failed (((r.get? "message").bind Json.string?).getD "deliberate failure"))

/-- Fail on even steps. -/
def failEven : OutputFn := fun r =>
  match int? r "step" with
  | some n => if n % 2 = 0 then .error (.failed ("even step " ++ toString n)) else .ok (.int n)
  | none => .ok (fieldOrNull r "step")

/-- All functions by name. -/
def all : List (String × OutputFn) :=
  [("add", add), ("inc", inc), ("inc_to5", incToFive), ("fib_next", fibNext), ("fib_prev", fibPrev),
    ("rows", rows), ("value", fun r => .ok (fieldOrNull r "value")),
    ("echo", fun r => .ok (.ofRecord r)), ("keys", fun r => .ok (.arr (r.keys.map .str))),
    ("size", fun r => .ok (.nat r.size)),
    ("grid", grid), ("half", onDouble Double.half), ("double", onDouble Double.double),
    ("fail", fail), ("fail_even", failEven),
    ("panic_str", fun _ => .error (.panicked (some "boom literal"))),
    ("panic_string", fun r =>
      .error (.panicked (some ("boom " ++ toString ((int? r "count").getD (-1)))))),
    ("panic_any", fun _ => .error (.panicked none))]

/-- The function of a name. -/
def lookup? (id : String) : Option OutputFn := Entries.get? id all

end Cadence.Catalogue
