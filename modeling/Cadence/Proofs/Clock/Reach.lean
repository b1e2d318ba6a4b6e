import Cadence.Clock.Loop
import Mathlib.Logic.Relation

/-!
# What becomes of a loop

Whatever a loop does, it does in a few kinds of steps, and the clock stands still while strands run.

* `Loop.exists_wake`, `Loop.exists_wakeAll`: what is set going;
* `Loop.now_poll`, `Loop.now_settleWithin`: nothing that runs moves the clock;
* `Loop.Step`, `Loop.Reaches`: what can happen to a loop, and what can become of it;
* **`Loop.reaches_settle`**, `Loop.reaches_await`, **`Loop.reaches_advance`**: what loops do is made
  of steps.
-/

namespace Cadence.Loop

variable {π : Type} {P : Program π}

/-! ## What is set going -/

theorem exists_wake (l : Loop π) (x : Strand) :
    ∃ ready summoned, l.wake x = { l with ready, summoned } ∧ l.ready ⊆ ready ∧
      (x = .driver → x ∈ ready) := by
  unfold wake
  split
  · next eq => exact ⟨_, _, rfl, List.Subset.refl _, fun h => nomatch eq.symm.trans h⟩
  · split
    · next mem => exact ⟨_, _, rfl, List.Subset.refl _, fun _ => by simpa using mem⟩
    · exact ⟨_, _, rfl, List.subset_append_left _ _,
        fun _ => List.mem_append_right _ List.mem_cons_self⟩

theorem exists_wakeAll (due : List (Nat × Strand)) (l : Loop π) :
    ∃ ready summoned, due.foldl (fun l a => l.wake a.2) l = { l with ready, summoned } ∧
      l.ready ⊆ ready ∧ ∀ a ∈ due, a.2 = .driver → .driver ∈ ready := by
  induction due generalizing l with
  | nil => exact ⟨_, _, rfl, List.Subset.refl _, nofun⟩
  | cons a due ih =>
    obtain ⟨ready, summoned, eq, more, woken⟩ := exists_wake l a.2
    obtain ⟨ready', summoned', eq', more', woken'⟩ := ih (l.wake a.2)
    rw [eq] at eq' more'
    refine ⟨ready', summoned', ?_, List.Subset.trans more more', fun x mem driver => ?_⟩
    · rw [List.foldl_cons, eq]
      exact eq'
    · rcases List.mem_cons.mp mem with rfl | mem
      · exact more' (driver ▸ woken driver)
      · exact woken' x mem driver

/-! ## The clock stands still -/

@[simp] theorem now_wake (l : Loop π) (x : Strand) : (l.wake x).now = l.now := by
  obtain ⟨_, _, eq, -⟩ := exists_wake l x
  rw [eq]

@[simp] theorem now_schedule (l : Loop π) (delay : Nat) : (l.schedule delay).1.now = l.now := by
  unfold schedule
  split
  · exact now_wake _ _
  · dsimp only
    split
    · exact now_wake _ _
    · rfl

@[simp] theorem now_cancel (l : Loop π) (id : Nat) : (l.cancel id).now = l.now := by
  unfold cancel
  split
  · split <;> rfl
  · rfl

@[simp] theorem now_serve (l : Loop π) (r : Request) : (l.serve r).now = l.now := by
  cases r with
  | schedule delay => exact now_schedule l delay
  | cancel id => exact now_cancel l id
  | wake w => exact now_wake l _

theorem now_serveAll (requests : List Request) (l : Loop π) :
    (requests.foldl serve l).now = l.now := by
  induction requests generalizing l with
  | nil => rfl
  | cons r requests ih => exact (ih _).trans (now_serve l r)

theorem now_work (l : Loop π) (w : Work) (x : Strand) : (l.work P w x).now = l.now := by
  rcases polled : P.poll l.now l.program w with ⟨program, requests, outcome⟩
  have served : (requests.foldl serve { l with program }).now = l.now := now_serveAll _ _
  unfold work
  rw [polled]
  dsimp only
  split
  · exact served
  · exact served
  · split <;> exact served
  · exact served

theorem now_workOn (l : Loop π) (id : Nat) (x : Strand) : (l.workOn P id x).now = l.now := by
  unfold workOn
  rw [now_work]
  split <;> rfl

/-- **A strand that runs does not move the clock.** -/
theorem now_poll (l : Loop π) (x : Strand) : (l.poll P x).now = l.now := by
  cases x with
  | foreground | spawned => exact now_work _ _ _
  | sleeper id =>
    unfold poll pollSleeper
    dsimp only
    split
    · rfl
    · split
      · exact now_workOn _ _ _
      · split
        · rfl
        · exact now_workOn _ _ _
        · rfl
  | driver =>
    unfold poll pollDriver
    dsimp only
    split
    · rfl
    · split
      · exact now_workOn _ _ _
      · split
        · rfl
        · rfl
        · exact now_workOn _ _ _

theorem now_settleWithin (n : Nat) (l : Loop π) : (settleWithin P n l).now = l.now := by
  induction n generalizing l with
  | zero => rfl
  | succ n ih =>
    unfold settleWithin
    split
    · rw [ih, now_poll]
    · split
      · rw [ih, now_poll]
      · rfl

theorem now_ring (time : Nat) (l : Loop π) : (ring P time l).now = time := by
  unfold ring
  dsimp only
  obtain ⟨_, _, eq, -⟩ := exists_wakeAll (l.alarms.filter (·.1 ≤ time))
    { l with now := time, alarms := l.alarms.filter fun a => !decide (a.1 ≤ time) }
  rw [eq]
  split
  · rw [now_poll]
  · rfl

theorem now_runUntil_le {stop : Loop π → Bool} {limit : Nat} (n : Nat) {l : Loop π}
    (le : l.now ≤ limit) : (runUntil P stop (some limit) n l).now ≤ limit := by
  induction n generalizing l with
  | zero => exact le
  | succ n ih =>
    have settled : (settle P l).now ≤ limit := by
      unfold settle
      rwa [now_settleWithin]
    unfold runUntil
    dsimp only
    split
    · exact settled
    · split
      · exact settled
      · next time next =>
        split
        · exact settled
        · next within =>
          refine ih ?_
          rw [now_ring]
          simpa using within

/-! ## Steps -/

/-- What can happen to a loop: tasks are scheduled and cancelled, the first of the ready strands
runs until it waits, or the foreground does, the next alarms go off, and time passes before them. -/
inductive Step (P : Program π) : Loop π → Loop π → Prop
  | scheduled (l : Loop π) (delay : Nat) : Step P l (l.schedule delay).1
  | cancelled (l : Loop π) (id : Nat) : Step P l (l.cancel id)
  | polled {l : Loop π} {x : Strand} {r : List Strand} (ready : l.ready = x :: r) :
      Step P l (poll P { l with ready := r } x)
  | summoned (l : Loop π) : Step P l (poll P { l with summoned := false } .foreground)
  | rang {l : Loop π} {time : Nat} (next : l.nextAlarm = some time) : Step P l (ring P time l)
  | passed {l : Loop π} {time : Nat} (later : l.now ≤ time) (calm : ∀ a ∈ l.alarms, time ≤ a.1) :
      Step P l { l with now := time }

/-- What can become of a loop. -/
def Reaches (P : Program π) : Loop π → Loop π → Prop := Relation.ReflTransGen (Step P)

theorem reaches_settleWithin (n : Nat) (l : Loop π) : Reaches P l (settleWithin P n l) := by
  induction n generalizing l with
  | zero => exact .refl
  | succ n ih =>
    unfold settleWithin
    split
    · next x r ready => exact .head (.polled ready) (ih _)
    · split
      · exact .head (.summoned l) (ih _)
      · exact .refl

/-- **Strands that run do so in steps.** -/
theorem reaches_settle (l : Loop π) : Reaches P l (settle P l) := reaches_settleWithin patience l

theorem reaches_runUntil (stop : Loop π → Bool) (limit : Option Nat) (n : Nat) (l : Loop π) :
    Reaches P l (runUntil P stop limit n l) := by
  induction n generalizing l with
  | zero => exact .refl
  | succ n ih =>
    have settled : Reaches P l (settle P l) := reaches_settle l
    unfold runUntil
    dsimp only
    split
    · exact settled
    · split
      · exact settled
      · next time next =>
        split
        · exact settled
        · exact settled.trans (.head (.rang next) (ih _))

theorem reaches_await (stop : Loop π → Bool) (l : Loop π) : Reaches P l (await P stop l) :=
  reaches_runUntil stop none patience l

/-- **Time passes in steps**, unless the loop gives up before its alarms have gone off. -/
theorem reaches_advance {ms : Nat} {l : Loop π}
    (calm : ∀ a ∈ (l.advance P ms).alarms, l.now + ms ≤ a.1) : Reaches P l (l.advance P ms) :=
  (reaches_runUntil _ _ patience l).tail
    (.passed (now_runUntil_le patience (Nat.le_add_right _ _)) calm)

end Cadence.Loop
