import Cadence.Proofs.Module.Traffic

/-!
# Loads at once

Loading several locations at once is one of the runs of calls: every call takes its first look, and
then those that wait take another one.

* `LoadCall.Stands`, `LoadCall.result?`: how a call stands for a caller, and what it returns;
* `Traffic.exists_run_loadAll`: the run of several loads, with their results;
* **`Traffic.outcome?_loadAll`**: loads that name one transfer return one module.
-/

namespace Cadence

/-- The call is the one of this caller. -/
def LoadCall.Stands (call : LoadCall) : ModuleCache.Caller → Prop
  | .refused cause => call.answer = some (.error cause)
  | .waiting _ t => call.awaits? = some t
  | .answered t o => call.transfer = some t ∧ call.answer = some o

/-- What a call returns, with the number of its transfer. -/
def LoadCall.result? (call : LoadCall) : Option (Except LoadFault (Nat × Module)) :=
  call.answer.map (ModuleCache.withTransfer (call.transfer.getD 0))

namespace ModuleCache

variable {c : ModuleCache} {source : Source}

/-- What the first look of a caller leaves, if it waits or has been answered. -/
def callerOf (location : String) (t : Nat) : Option Loaded → Caller
  | some o => .answered t o
  | none => .waiting location t

theorem firstPoll_join {location : String} {t : Nat} (named : location ≠ "")
    (entry : Entries.get? location c.entries = some t) :
    c.firstPoll source location =
      ((c.poll t (some (c.arrival source location t))).1,
        callerOf location t (c.poll t (some (c.arrival source location t))).2) := by
  unfold firstPoll
  rw [enter_join named entry]
  simp only [Nat.lt_irrefl, if_false]
  generalize c.poll t (some (c.arrival source location t)) = polled
  obtain ⟨c', answer⟩ := polled
  cases answer <;> rfl

theorem firstPoll_start {location : String} (named : location ≠ "")
    (new : Entries.get? location c.entries = none) :
    c.firstPoll source location =
      (((c.start location).poll c.started none).1,
        callerOf location c.started ((c.start location).poll c.started none).2) := by
  unfold firstPoll
  rw [enter_start named new]
  simp only [started_start, Nat.lt_succ_self, if_true]
  generalize (c.start location).poll c.started none = polled
  obtain ⟨c', answer⟩ := polled
  cases answer <;> rfl

theorem finish_eq (c : ModuleCache) (t : Nat) (o : Loaded) :
    ∃ o', c.poll t (some o) = ((c.finish t o).1, some o') ∧ (c.finish t o).2 = o' := by
  cases outcome : c.outcome? t with
  | some o' =>
    exact ⟨o', by simp [poll_settled outcome, finish, outcome], by simp [finish, outcome]⟩
  | none => exact ⟨o, by simp [poll_arrived outcome, finish, outcome, bring],
      by simp [finish, outcome]⟩

end ModuleCache

namespace Traffic

variable {source : ModuleCache.Source}

theorem stands_callerOf (location : String) (t : Nat) (answer : Option Loaded) (starts : Bool) :
    LoadCall.Stands { location, transfer := some t, starts, answer }
      (ModuleCache.callerOf location t answer) := by
  cases answer with
  | none => rfl
  | some o => exact ⟨rfl, rfl⟩

theorem exists_load_firstPoll (τ : Traffic) (source : ModuleCache.Source) (location : String) :
    ∃ arrived call, τ.load location arrived =
        ⟨(τ.cache.firstPoll source location).1, τ.calls ++ [call]⟩ ∧
      call.Stands (τ.cache.firstPoll source location).2 := by
  by_cases named : location = ""
  · subst named
    exact ⟨none, _, load_empty τ none, rfl⟩
  · cases entry : Entries.get? location τ.cache.entries with
    | some t =>
      rw [ModuleCache.firstPoll_join named entry]
      refine ⟨some (τ.cache.arrival source location t), _, ?_, stands_callerOf location t _ false⟩
      rw [load_join named entry, look_last rfl]
    | none =>
      rw [ModuleCache.firstPoll_start named entry]
      refine ⟨none, _, ?_, stands_callerOf location τ.cache.started _ true⟩
      rw [load_start named entry, look_last rfl]

theorem exists_run_firstPolls (τ : Traffic) (source : ModuleCache.Source)
    (locations : List String) :
    let polled := ModuleCache.inTurn (fun c l => c.firstPoll source l) τ.cache locations
    ∃ actions calls, τ.run actions = ⟨polled.1, τ.calls ++ calls⟩ ∧
      List.Forall₂ LoadCall.Stands calls polled.2 := by
  induction locations generalizing τ with
  | nil => exact ⟨[], [], by simp [run, ModuleCache.inTurn], .nil⟩
  | cons location locations ih =>
    obtain ⟨arrived, call, loaded, stands⟩ := exists_load_firstPoll τ source location
    obtain ⟨actions, calls, ran, rest⟩ := ih (τ.load location arrived)
    rw [loaded] at ran rest
    refine ⟨.load location arrived :: actions, call :: calls, ?_, .cons stands rest⟩
    show (τ.load location arrived).run actions = _
    rw [loaded, ran, List.append_assoc]
    rfl

theorem exists_run_lastPoll (cache : ModuleCache) (source : ModuleCache.Source)
    (before after : List LoadCall) {call : LoadCall} {w : ModuleCache.Caller}
    (stands : call.Stands w) :
    ∃ actions call', run ⟨cache, before ++ call :: after⟩ actions =
        ⟨(cache.lastPoll source w).1, before ++ call' :: after⟩ ∧
      call'.result? = some (cache.lastPoll source w).2 := by
  cases w with
  | refused cause =>
    refine ⟨[], call, rfl, ?_⟩
    rw [LoadCall.result?, show call.answer = _ from stands]
    rfl
  | answered t o =>
    refine ⟨[], call, rfl, ?_⟩
    rw [LoadCall.result?, stands.1, stands.2]
    rfl
  | waiting location t =>
    have awaits : call.awaits? = some t := stands
    obtain ⟨o, polled, brought⟩ := cache.finish_eq t (cache.arrival source location t)
    have found : (before ++ call :: after)[before.length]? = some call := by simp
    refine ⟨[.resume before.length (some (cache.arrival source location t))],
      { call with answer := some o }, ?_, ?_⟩
    · show look _ _ _ = _
      rw [look_eq found awaits, polled, List.set_append_right _ _ (Nat.le_refl _)]
      simp [ModuleCache.lastPoll]
    · rw [LoadCall.result?, (LoadCall.awaits?_eq_some_iff.mp awaits).2.2]
      simp [ModuleCache.lastPoll, brought]

theorem exists_run_lastPolls {calls : List LoadCall} {ws : List ModuleCache.Caller}
    (stand : List.Forall₂ LoadCall.Stands calls ws) (cache : ModuleCache)
    (source : ModuleCache.Source) (before : List LoadCall) :
    let polled := ModuleCache.inTurn (fun c w => c.lastPoll source w) cache ws
    ∃ actions calls', run ⟨cache, before ++ calls⟩ actions = ⟨polled.1, before ++ calls'⟩ ∧
      List.Forall₂ (fun call x => call.result? = some x) calls' polled.2 := by
  induction stand generalizing cache before with
  | nil => exact ⟨[], [], rfl, .nil⟩
  | @cons call w calls ws stands _ ih =>
    obtain ⟨first, call', looked, result⟩ := exists_run_lastPoll cache source before calls stands
    obtain ⟨actions, calls', ran, rest⟩ := ih (cache.lastPoll source w).1 (before ++ [call'])
    refine ⟨first ++ actions, call' :: calls', ?_, .cons result rest⟩
    rw [List.append_assoc, List.append_assoc] at ran
    show List.foldl step _ (first ++ actions) = _
    rw [List.foldl_append]
    show run (run _ first) actions = _
    rw [looked]
    exact ran

theorem exists_run_loadAll (τ : Traffic) (source : ModuleCache.Source) (locations : List String) :
    ∃ actions calls, τ.run actions =
        ⟨(τ.cache.loadAll source locations).1, τ.calls ++ calls⟩ ∧
      List.Forall₂ (fun call x => call.result? = some x) calls
        (τ.cache.loadAll source locations).2 := by
  obtain ⟨first, calls, entered, stand⟩ := exists_run_firstPolls τ source locations
  obtain ⟨last, calls', finished, results⟩ := exists_run_lastPolls stand
    (ModuleCache.inTurn (fun c l => c.firstPoll source l) τ.cache locations).1 source τ.calls
  refine ⟨first ++ last, calls', ?_, results⟩
  show List.foldl step τ (first ++ last) = _
  rw [List.foldl_append]
  show run (run τ first) last = _
  rw [entered]
  exact finished

theorem Coherent.outcome?_of_result? {τ : Traffic} (h : Coherent τ) {call : LoadCall}
    (mem : call ∈ τ.calls) {t : Nat} {m : Module} (result : call.result? = some (.ok (t, m))) :
    τ.cache.outcome? t = some (.ok m) := by
  obtain ⟨o, answer, brought⟩ := Option.map_eq_some_iff.mp result
  cases transfer : call.transfer with
  | none =>
    have refused : o = .error .emptyLocation :=
      Option.some.inj (answer.symm.trans (h.refused call mem transfer))
    subst refused
    cases brought
  | some t' =>
    have told := h.answered call mem t' transfer o answer
    cases o with
    | error f => cases brought
    | ok m' =>
      rw [transfer] at brought
      cases brought
      exact told

/-- **Loads at once share modules.** What a load returns is what the transfer has brought that it
names, so loads that name one transfer return one module. -/
theorem outcome?_loadAll (actions : List Action) (source : ModuleCache.Source)
    (locations : List String) {t : Nat} {m : Module}
    (mem : .ok (t, m) ∈ ((run {} actions).cache.loadAll source locations).2) :
    ((run {} actions).cache.loadAll source locations).1.outcome? t = some (.ok m) := by
  obtain ⟨more, calls, ran, results⟩ := exists_run_loadAll (run {} actions) source locations
  have coherent := (coherent_empty.run actions).run more
  rw [ran] at coherent
  obtain ⟨i, eq⟩ := List.mem_iff_get.mp mem
  have lt : i.1 < calls.length := results.length_eq.symm ▸ i.2
  have result : calls[i.1].result? = some (.ok (t, m)) := eq ▸ results.get lt i.2
  exact coherent.outcome?_of_result? (List.mem_append_right _ (List.getElem_mem lt)) result

end Traffic

end Cadence
