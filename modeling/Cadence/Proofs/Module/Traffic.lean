import Cadence.Module.Cache
import Mathlib.Data.List.Nodup
import Mathlib.Logic.Relation

/-!
# Callers of a module cache

Any number of calls load modules at once, each at its own pace. A call looks at its transfer when it
begins and whenever it is resumed, until it is answered or dropped. A transfer gets on only while a
call looks at it, so what has arrived by then is part of the look, and a run of all calls together
is a list of looks with invalidations and drops in between.

* `LoadTicket`, `LoadCall`: what a call is about, and how it stands;
* `Traffic`, `Traffic.step`, `Traffic.run`: a cache with all calls so far, and its runs;
* `ModuleCache.start`, `ModuleCache.bring`: the two ways in which transfers change;
* `ModuleCache.Orderly`: entries point at the latest transfers of their locations, which have not
  failed;
* `Traffic.Move`, **`Traffic.moves_step`**: the parts of what calls do, and actions as chains of
  them;
* `Traffic.Coherent`, **`Traffic.Coherent.run`**: in every run, calls are in line with the cache.
-/

namespace Cadence

/-! ## Runs of calls -/

/-- What a call is about: the location, the transfer that it waits for unless it was refused, and
whether it has started this transfer itself. -/
structure LoadTicket where
  location : String
  transfer : Option Nat := none
  starts : Bool := false

/-- A call of the cache. It may be given up before it is answered. -/
structure LoadCall extends LoadTicket where
  answer : Option Loaded := none
  dropped : Bool := false

/-- The transfer that a call waits for. -/
def LoadCall.awaits? (call : LoadCall) : Option Nat :=
  if call.answer.isSome || call.dropped then none else call.transfer

/-- A cache with all calls so far, in the order in which they began. -/
structure Traffic where
  cache : ModuleCache := {}
  calls : List LoadCall := []

namespace Traffic

/-- A call that waits looks at its transfer. If that is in flight, `arrived` is what has arrived by
now. -/
def look (τ : Traffic) (i : Nat) (arrived : Option Loaded) : Traffic :=
  match τ.calls[i]? with
  | none => τ
  | some call =>
    match call.awaits? with
    | none => τ
    | some t =>
      ⟨(τ.cache.poll t arrived).1, τ.calls.set i { call with answer := (τ.cache.poll t arrived).2 }⟩

/-- A call begins. Unless it is refused, it looks at its transfer at once. -/
def load (τ : Traffic) (location : String) (arrived : Option Loaded) : Traffic :=
  match τ.cache.enter location with
  | (cache, .error cause) => ⟨cache, τ.calls ++ [{ location, answer := some (.error cause) }]⟩
  | (cache, .ok t) =>
    let starts : Bool := τ.cache.started < cache.started
    look ⟨cache, τ.calls ++ [{ location, transfer := some t, starts }]⟩ τ.calls.length arrived

/-- A call is given up. -/
def drop (τ : Traffic) (i : Nat) : Traffic :=
  { τ with calls := τ.calls.modify i fun call => { call with dropped := true } }

/-- What can happen to a cache and its callers. -/
inductive Action
  | load (location : String) (arrived : Option Loaded)
  | resume (call : Nat) (arrived : Option Loaded)
  | drop (call : Nat)
  | invalidate (location : Option String)

/-- One action. -/
def step (τ : Traffic) : Action → Traffic
  | .load location arrived => τ.load location arrived
  | .resume i arrived => τ.look i arrived
  | .drop i => τ.drop i
  | .invalidate location => { τ with cache := τ.cache.invalidate location }

/-- Actions in order. -/
def run (τ : Traffic) (actions : List Action) : Traffic := actions.foldl step τ

end Traffic

/-! ## Transfers -/

namespace ModuleCache

variable {c : ModuleCache} {t : Nat} {o : Loaded} {location : String}

/-- The location of a transfer. -/
def location? (c : ModuleCache) (t : Nat) : Option String := (c.transfers[t]?).map (·.location)

/-- A transfer starts, and its location gets an entry. -/
def start (c : ModuleCache) (location : String) : ModuleCache :=
  ⟨c.entries ++ [(location, c.started)], c.transfers ++ [⟨location, none⟩]⟩

/-- A transfer in flight settles, and the caller who sees it learns the outcome. -/
def bring (c : ModuleCache) (t : Nat) (o : Loaded) : ModuleCache := (c.settle t o).learn t o

theorem lt_started (h : c.location? t = some location) : t < c.started := by
  unfold location? at h
  obtain ⟨tr, found, -⟩ := Option.map_eq_some_iff.mp h
  exact (List.getElem?_eq_some_iff.mp found).1

theorem enter_join (named : location ≠ "") (entry : Entries.get? location c.entries = some t) :
    c.enter location = (c, .ok t) := by
  simp [enter, named, entry]

theorem enter_start (named : location ≠ "") (new : Entries.get? location c.entries = none) :
    c.enter location = (c.start location, .ok c.started) := by
  simp [enter, named, new, start]

theorem poll_settled (settled : c.outcome? t = some o) (arrived : Option Loaded) :
    c.poll t arrived = (c.learn t o, some o) := by
  simp [poll, settled]

theorem poll_inFlight (inFlight : c.outcome? t = none) : c.poll t none = (c, none) := by
  simp [poll, inFlight]

theorem poll_arrived (inFlight : c.outcome? t = none) (o : Loaded) :
    c.poll t (some o) = (c.bring t o, some o) := by
  simp [poll, inFlight, bring]

@[simp] theorem started_start (c : ModuleCache) (location : String) :
    (c.start location).started = c.started + 1 := by
  simp [started, start]

@[simp] theorem location?_start (c : ModuleCache) (location : String) (t : Nat) :
    (c.start location).location? t = if t = c.started then some location else c.location? t := by
  unfold location? start started
  rw [List.getElem?_append]
  split_ifs with h₁ h₂ h₂
  · omega
  · rfl
  · simp [h₂]
  · rw [List.getElem?_eq_none (by simp; omega), List.getElem?_eq_none (by omega)]

@[simp] theorem outcome?_start (c : ModuleCache) (location : String) (t : Nat) :
    (c.start location).outcome? t = c.outcome? t := by
  unfold outcome? start
  rw [List.getElem?_append]
  split_ifs with h
  · rfl
  · rw [List.getElem?_eq_none (by omega : c.transfers.length ≤ t)]
    cases t - c.transfers.length <;> rfl

theorem learn_eq (c : ModuleCache) (t : Nat) (o : Loaded) :
    c.learn t o = { c with entries := (c.learn t o).entries } := by
  cases o <;> rfl

theorem entries_learn_sublist (c : ModuleCache) (t : Nat) (o : Loaded) :
    (c.learn t o).entries.Sublist c.entries := by
  cases o with
  | ok m => exact List.Sublist.refl _
  | error f => exact List.filter_sublist

theorem mem_entries_learn {e : String × Nat} (mem : e ∈ c.entries) :
    e ∈ (c.learn t o).entries ∨ e.2 = t ∧ ∃ f, o = .error f := by
  cases o with
  | ok m => exact .inl mem
  | error f =>
    by_cases own : e.2 = t
    · exact .inr ⟨own, f, rfl⟩
    · exact .inl (List.mem_filter.mpr ⟨mem, by simpa using own⟩)

@[simp] theorem transfers_learn (c : ModuleCache) (t : Nat) (o : Loaded) :
    (c.learn t o).transfers = c.transfers := by
  cases o <;> rfl

@[simp] theorem started_learn (c : ModuleCache) (t : Nat) (o : Loaded) :
    (c.learn t o).started = c.started := by
  simp [started]

@[simp] theorem started_bring (c : ModuleCache) (t : Nat) (o : Loaded) :
    (c.bring t o).started = c.started := by
  simp [started, bring, settle]

@[simp] theorem location?_bring (c : ModuleCache) (t : Nat) (o : Loaded) (t' : Nat) :
    (c.bring t o).location? t' = c.location? t' := by
  unfold location? bring settle
  rw [transfers_learn, List.getElem?_modify]
  cases c.transfers[t']? with
  | none => rfl
  | some tr => by_cases h : t = t' <;> simp [h]

theorem outcome?_bring_self (h : t < c.started) (o : Loaded) :
    (c.bring t o).outcome? t = some o := by
  unfold outcome? bring settle
  rw [transfers_learn, List.getElem?_modify, List.getElem?_eq_getElem h]
  simp

theorem outcome?_bring_of_ne {t' : Nat} (c : ModuleCache) (o : Loaded) (h : t' ≠ t) :
    (c.bring t o).outcome? t' = c.outcome? t' := by
  unfold outcome? bring settle
  rw [transfers_learn, List.getElem?_modify]
  cases c.transfers[t']? <;> simp [Ne.symm h]

theorem outcome?_bring_of_settled {o' : Loaded} {t' : Nat} (inFlight : c.outcome? t = none)
    (settled : c.outcome? t' = some o') (o : Loaded) : (c.bring t o).outcome? t' = some o' := by
  rw [outcome?_bring_of_ne c o, settled]
  rintro rfl
  simp [inFlight] at settled

@[simp] theorem started_poll (c : ModuleCache) (t : Nat) (arrived : Option Loaded) :
    (c.poll t arrived).1.started = c.started := by
  cases outcome : c.outcome? t with
  | some o => simp [poll_settled outcome]
  | none =>
    cases arrived with
    | none => simp [poll_inFlight outcome]
    | some o => simp [poll_arrived outcome]

theorem mem_of_get?_eq_some {es : Entries Nat} (h : es.get? location = some t) :
    (location, t) ∈ es := by
  induction es with
  | nil => simp [Entries.get?] at h
  | cons e r ih =>
    by_cases eq : e.1 = location
    · simp only [Entries.get?, eq, if_true, Option.some.injEq] at h
      simp [← eq, ← h]
    · simp only [Entries.get?, eq, if_false] at h
      exact List.mem_cons_of_mem _ (ih h)

theorem entries_invalidate_sublist (c : ModuleCache) (scope : Option String) :
    (c.invalidate scope).entries.Sublist c.entries := by
  cases scope with
  | none => exact List.nil_sublist _
  | some location => exact List.filter_sublist

/-! ## Order among entries -/

/-- A location has one entry at most. The entry points at the latest transfer of the location, and
this transfer has not failed. -/
structure Orderly (c : ModuleCache) : Prop where
  keys : (c.entries.map (·.1)).Nodup
  own : ∀ e ∈ c.entries, c.location? e.2 = some e.1
  latest : ∀ e ∈ c.entries, ∀ t, c.location? t = some e.1 → t ≤ e.2
  sound : ∀ e ∈ c.entries, ∀ f, c.outcome? e.2 ≠ some (.error f)
  named : ∀ t, c.location? t ≠ some ""

theorem orderly_empty : Orderly {} := by
  refine ⟨List.nodup_nil, nofun, nofun, nofun, fun t => ?_⟩
  simp [location?]

theorem Orderly.thinned (h : c.Orderly) {es : List (String × Nat)} (sub : es.Sublist c.entries) :
    Orderly { c with entries := es } where
  keys := h.keys.sublist (sub.map _)
  own e he := h.own e (sub.subset he)
  latest e he := h.latest e (sub.subset he)
  sound e he := h.sound e (sub.subset he)
  named := h.named

theorem Orderly.learn (h : c.Orderly) (t : Nat) (o : Loaded) : (c.learn t o).Orderly := by
  rw [learn_eq]
  exact h.thinned (entries_learn_sublist c t o)

theorem Orderly.invalidate (h : c.Orderly) (scope : Option String) :
    (c.invalidate scope).Orderly := by
  have sub := entries_invalidate_sublist c scope
  cases scope with
  | none => exact h.thinned sub
  | some location => exact h.thinned sub

theorem Orderly.start (h : c.Orderly) (named : location ≠ "")
    (new : Entries.get? location c.entries = none) : (c.start location).Orderly := by
  have absent : ∀ e ∈ c.entries, e.1 ≠ location := by
    rintro e he rfl
    have missing := Entries.get?_eq_none_iff.mp new
    rw [Entries.contains_iff.mpr (List.mem_map_of_mem he)] at missing
    cases missing
  have older : ∀ e ∈ c.entries, e.2 ≠ c.started := fun e he =>
    Nat.ne_of_lt (lt_started (h.own e he))
  refine ⟨?_, ?_, ?_, ?_, ?_⟩
  · show ((c.entries ++ [_]).map _).Nodup
    rw [List.map_append, List.nodup_append]
    refine ⟨h.keys, List.nodup_singleton _, ?_⟩
    intro l mem l' mem' eq
    obtain ⟨e, he, rfl⟩ := List.mem_map.mp mem
    exact absent e he (by simpa [eq] using mem')
  · intro e he
    rcases List.mem_append.mp he with old | new
    · simp [older e old, h.own e old]
    · obtain rfl := List.mem_singleton.mp new
      simp
  · intro e he t
    rcases List.mem_append.mp he with old | new
    · rw [location?_start]
      split_ifs
      · intro eq
        exact absurd (Option.some.inj eq).symm (absent e old)
      · exact h.latest e old t
    · obtain rfl := List.mem_singleton.mp new
      intro found
      have := lt_started found
      rw [started_start] at this
      exact Nat.le_of_lt_succ this
  · intro e he
    rw [outcome?_start]
    rcases List.mem_append.mp he with old | new
    · exact h.sound e old
    · obtain rfl := List.mem_singleton.mp new
      simp [outcome?, started]
  · intro t
    rw [location?_start]
    split_ifs
    · simpa using named
    · exact h.named t

theorem entries_bring_sublist (c : ModuleCache) (t : Nat) (o : Loaded) :
    (c.bring t o).entries.Sublist c.entries :=
  entries_learn_sublist (c.settle t o) t o

theorem Orderly.bring (h : c.Orderly) (t : Nat) (o : Loaded) : (c.bring t o).Orderly := by
  have sub := entries_bring_sublist c t o
  refine ⟨h.keys.sublist (sub.map _), ?_, ?_, ?_, ?_⟩
  · intro e he
    rw [location?_bring]
    exact h.own e (sub.subset he)
  · intro e he t'
    rw [location?_bring]
    exact h.latest e (sub.subset he) t'
  · intro e he f failed
    by_cases own : e.2 = t
    -- the entry of a transfer that brings a failure is gone
    · rw [← own, outcome?_bring_self (lt_started (h.own e (sub.subset he)))] at failed
      cases Option.some.inj failed
      have kept := (List.mem_filter.mp he).2
      simp [own] at kept
    · rw [outcome?_bring_of_ne c o own] at failed
      exact h.sound e (sub.subset he) f failed
  · intro t'
    rw [location?_bring]
    exact h.named t'

end ModuleCache

/-! ## Moves -/

theorem LoadCall.awaits?_eq_some_iff {call : LoadCall} {t : Nat} :
    call.awaits? = some t ↔
      call.answer = none ∧ call.dropped = false ∧ call.transfer = some t := by
  unfold awaits?
  cases call.answer <;> cases call.dropped <;> simp

/-- A ticket is for a transfer of its location. Without a transfer the location is empty. -/
def LoadTicket.Fits (c : ModuleCache) (ticket : LoadTicket) : Prop :=
  match ticket.transfer with
  | some t => c.location? t = some ticket.location
  | none => ticket.location = "" ∧ ticket.starts = false

theorem LoadTicket.Fits.located {c : ModuleCache} {ticket : LoadTicket} (h : ticket.Fits c)
    {t : Nat} (transfer : ticket.transfer = some t) : c.location? t = some ticket.location := by
  unfold Fits at h
  rwa [transfer] at h

theorem LoadTicket.Fits.mono {c c' : ModuleCache} {ticket : LoadTicket} (h : ticket.Fits c)
    (located : ∀ t l, c.location? t = some l → c'.location? t = some l) : ticket.Fits c' := by
  unfold Fits at h ⊢
  cases transfer : ticket.transfer with
  | none => simpa [transfer] using h
  | some t =>
    rw [transfer] at h
    exact located t _ h

namespace Traffic

/-- The parts of what calls do: a call is refused, joins an entry, or starts a transfer; it is told
an outcome, or sees its transfer settle; it is dropped. -/
inductive Move : Traffic → Traffic → Prop
  | refused (τ : Traffic) :
      Move τ { τ with
        calls := τ.calls ++ [{ location := "", answer := some (.error .emptyLocation) }] }
  | joined {τ : Traffic} {location : String} {t : Nat}
      (entry : Entries.get? location τ.cache.entries = some t) :
      Move τ { τ with calls := τ.calls ++ [{ location, transfer := some t }] }
  | started {τ : Traffic} {location : String} (named : location ≠ "")
      (new : Entries.get? location τ.cache.entries = none) :
      Move τ ⟨τ.cache.start location,
        τ.calls ++ [{ location, transfer := some τ.cache.started, starts := true }]⟩
  | told {τ : Traffic} {i t : Nat} {call : LoadCall} {o : Loaded}
      (found : τ.calls[i]? = some call) (awaits : call.awaits? = some t)
      (settled : τ.cache.outcome? t = some o) :
      Move τ ⟨τ.cache.learn t o, τ.calls.set i { call with answer := some o }⟩
  | saw {τ : Traffic} {i t : Nat} {call : LoadCall} (o : Loaded)
      (found : τ.calls[i]? = some call) (awaits : call.awaits? = some t)
      (inFlight : τ.cache.outcome? t = none) :
      Move τ ⟨τ.cache.bring t o, τ.calls.set i { call with answer := some o }⟩
  | dropped (τ : Traffic) (i : Nat) : Move τ (τ.drop i)

/-- Chains of moves. -/
abbrev Moves : Traffic → Traffic → Prop := Relation.ReflTransGen Move

variable {τ τ' : Traffic}

theorem look_eq {i t : Nat} {call : LoadCall} (found : τ.calls[i]? = some call)
    (awaits : call.awaits? = some t) (arrived : Option Loaded) :
    τ.look i arrived = ⟨(τ.cache.poll t arrived).1,
      τ.calls.set i { call with answer := (τ.cache.poll t arrived).2 }⟩ := by
  simp [look, found, awaits]

theorem look_last {cache : ModuleCache} {calls : List LoadCall} {call : LoadCall} {t : Nat}
    (awaits : call.awaits? = some t) (arrived : Option Loaded) :
    look ⟨cache, calls ++ [call]⟩ calls.length arrived = ⟨(cache.poll t arrived).1,
      calls ++ [{ call with answer := (cache.poll t arrived).2 }]⟩ := by
  rw [look_eq List.getElem?_concat_length awaits, List.set_append_right _ _ (Nat.le_refl _)]
  simp

theorem moves_look (τ : Traffic) (i : Nat) (arrived : Option Loaded) :
    Moves τ (τ.look i arrived) := by
  cases found : τ.calls[i]? with
  | none =>
    rw [look, found]
  | some call =>
    cases awaits : call.awaits? with
    | none =>
      simp only [look, found, awaits, Relation.ReflTransGen.refl]
    | some t =>
      rw [look_eq found awaits]
      cases outcome : τ.cache.outcome? t with
      | some o =>
        rw [ModuleCache.poll_settled outcome]
        exact .single (.told found awaits outcome)
      | none =>
        cases arrived with
        | some o =>
          rw [ModuleCache.poll_arrived outcome]
          exact .single (.saw o found awaits outcome)
        | none =>
          -- nothing has arrived, and the call goes on waiting
          have unanswered : { call with answer := none } = call := by
            rw [← (LoadCall.awaits?_eq_some_iff.mp awaits).1]
          obtain ⟨lt, eq⟩ := List.getElem?_eq_some_iff.mp found
          rw [ModuleCache.poll_inFlight outcome, unanswered, ← eq, List.set_getElem_self]

theorem load_empty (τ : Traffic) (arrived : Option Loaded) :
    τ.load "" arrived = { τ with
      calls := τ.calls ++ [{ location := "", answer := some (.error .emptyLocation) }] } := rfl

theorem load_join {location : String} {t : Nat} (named : location ≠ "")
    (entry : Entries.get? location τ.cache.entries = some t) (arrived : Option Loaded) :
    τ.load location arrived =
      look { τ with calls := τ.calls ++ [{ location, transfer := some t }] } τ.calls.length
        arrived := by
  simp [load, ModuleCache.enter_join named entry]

theorem load_start {location : String} (named : location ≠ "")
    (new : Entries.get? location τ.cache.entries = none) (arrived : Option Loaded) :
    τ.load location arrived =
      look ⟨τ.cache.start location,
        τ.calls ++ [{ location, transfer := some τ.cache.started, starts := true }]⟩
        τ.calls.length arrived := by
  simp [load, ModuleCache.enter_start named new]

theorem moves_load (τ : Traffic) (location : String) (arrived : Option Loaded) :
    Moves τ (τ.load location arrived) := by
  by_cases named : location = ""
  · subst named
    exact .single (.refused τ)
  · cases entry : Entries.get? location τ.cache.entries with
    | some t =>
      rw [load_join named entry]
      exact .head (.joined entry) (moves_look _ _ _)
    | none =>
      rw [load_start named entry]
      exact .head (.started named entry) (moves_look _ _ _)

/-- **What calls do is a chain of moves.** All other actions are invalidations. -/
theorem moves_step (τ : Traffic) (a : Action) :
    Moves τ (τ.step a) ∨ ∃ scope, a = .invalidate scope := by
  cases a with
  | load location arrived => exact .inl (moves_load τ location arrived)
  | resume i arrived => exact .inl (moves_look τ i arrived)
  | drop i => exact .inl (.single (.dropped τ i))
  | invalidate scope => exact .inr ⟨scope, rfl⟩

/-- What every move keeps, a chain of moves keeps. -/
theorem Moves.keeps {P : Traffic → Prop} (h : ∀ {τ τ'}, Move τ τ' → P τ → P τ')
    (m : Moves τ τ') (start : P τ) : P τ' := by
  induction m with
  | refl => exact start
  | tail _ last ih => exact h last ih

/-- What every move and every invalidation keeps, a run keeps. -/
theorem keeps_run {P : Traffic → Prop} (move : ∀ {τ τ'}, Move τ τ' → P τ → P τ')
    (invalidate : ∀ {τ} scope, P τ → P (τ.step (.invalidate scope))) (start : P τ)
    (actions : List Action) : P (τ.run actions) := by
  induction actions generalizing τ with
  | nil => exact start
  | cons a actions ih =>
    refine ih ?_
    rcases moves_step τ a with m | ⟨scope, rfl⟩
    · exact m.keeps move start
    · exact invalidate scope start

/-! ## Tickets -/

/-- What the calls so far are about. -/
def tickets (τ : Traffic) : List LoadTicket := τ.calls.map (·.toLoadTicket)

theorem tickets_set {i : Nat} {call : LoadCall} (found : τ.calls[i]? = some call)
    (answer : Option Loaded) :
    (τ.calls.set i { call with answer }).map (·.toLoadTicket) = τ.tickets := by
  obtain ⟨lt, rfl⟩ := List.getElem?_eq_some_iff.mp found
  refine List.ext_getElem? fun j => ?_
  by_cases h : i = j
  · subst h
    simp [tickets, lt]
  · simp [tickets, List.getElem?_set_ne h]

theorem tickets_drop (τ : Traffic) (i : Nat) : (τ.drop i).tickets = τ.tickets := by
  refine List.ext_getElem? fun j => ?_
  unfold tickets drop
  rw [List.getElem?_map, List.getElem?_map, List.getElem?_modify]
  cases τ.calls[j]? with
  | none => rfl
  | some call => by_cases h : i = j <;> simp [h]

theorem getElem?_tickets {i : Nat} {call : LoadCall} (found : τ.calls[i]? = some call) :
    τ.tickets[i]? = some call.toLoadTicket := by
  simp [tickets, found]

/-! ## Coherence -/

/-- Calls are in line with the cache: their tickets fit, an answer is the outcome of the transfer or
a refusal, and the calls that have started transfers have started one each, in their order. -/
structure Coherent (τ : Traffic) : Prop where
  orderly : τ.cache.Orderly
  fits : ∀ ticket ∈ τ.tickets, ticket.Fits τ.cache
  answered : ∀ call ∈ τ.calls, ∀ t ∈ call.transfer, ∀ o ∈ call.answer, τ.cache.outcome? t = some o
  refused : ∀ call ∈ τ.calls, call.transfer = none → call.answer = some (.error .emptyLocation)
  starters : (τ.tickets.filter (·.starts)).map (·.transfer) =
    (List.range τ.cache.started).map some

theorem Coherent.recache (h : Coherent τ) {cache : ModuleCache} (orderly : cache.Orderly)
    (started : cache.started = τ.cache.started)
    (location : ∀ t, cache.location? t = τ.cache.location? t)
    (outcome : ∀ t o, τ.cache.outcome? t = some o → cache.outcome? t = some o) :
    Coherent { τ with cache } := by
  refine ⟨orderly, fun ticket mem => ?_, ?_, h.refused, ?_⟩
  · exact (h.fits ticket mem).mono fun t l found => (location t).trans found
  · intro call mem t ht o ho
    exact outcome t o (h.answered call mem t ht o ho)
  · rw [started]
    exact h.starters

/-- A call is answered as its transfer says. -/
theorem Coherent.answer (h : Coherent τ) {i t : Nat} {call : LoadCall} {o : Loaded}
    (found : τ.calls[i]? = some call) (transfer : call.transfer = some t)
    (settled : τ.cache.outcome? t = some o) :
    Coherent { τ with calls := τ.calls.set i { call with answer := some o } } := by
  have tickets := tickets_set found (some o)
  refine ⟨h.orderly, ?_, ?_, ?_, ?_⟩
  · intro ticket mem
    exact h.fits ticket (tickets ▸ mem)
  · intro call' mem t' ht o' ho
    rcases List.mem_or_eq_of_mem_set mem with old | rfl
    · exact h.answered call' old t' ht o' ho
    · simp only [transfer, Option.mem_def, Option.some.injEq] at ht ho
      rw [← ht, ← ho, settled]
  · intro call' mem
    rcases List.mem_or_eq_of_mem_set mem with old | rfl
    · exact h.refused call' old
    · simp [transfer]
  · show ((List.map _ (τ.calls.set _ _)).filter _).map _ = _
    rw [tickets]
    exact h.starters

theorem mem_calls_drop {i : Nat} {call : LoadCall} (mem : call ∈ (τ.drop i).calls) :
    ∃ old ∈ τ.calls, call.toLoadTicket = old.toLoadTicket ∧ call.answer = old.answer := by
  obtain ⟨j, found⟩ := List.mem_iff_getElem?.mp mem
  unfold drop at found
  rw [List.getElem?_modify] at found
  obtain ⟨old, at_j, rfl⟩ := Option.map_eq_some_iff.mp found
  refine ⟨old, List.mem_of_getElem? at_j, ?_⟩
  by_cases eq : i = j <;> simp [eq]

theorem Coherent.drop (h : Coherent τ) (i : Nat) : Coherent (τ.drop i) := by
  refine ⟨h.orderly, ?_, ?_, ?_, ?_⟩
  · rw [tickets_drop]
    exact h.fits
  · intro call mem
    obtain ⟨old, kept, ticket, answer⟩ := mem_calls_drop mem
    rw [ticket, answer]
    exact h.answered old kept
  · intro call mem
    obtain ⟨old, kept, ticket, answer⟩ := mem_calls_drop mem
    rw [ticket, answer]
    exact h.refused old kept
  · rw [tickets_drop]
    exact h.starters

theorem Coherent.append (h : Coherent τ) {cache : ModuleCache} {call : LoadCall}
    (orderly : cache.Orderly)
    (location : ∀ t l, τ.cache.location? t = some l → cache.location? t = some l)
    (outcome : ∀ t, cache.outcome? t = τ.cache.outcome? t)
    (fits : call.toLoadTicket.Fits cache)
    (fresh : call.answer = if call.transfer = none then some (.error .emptyLocation) else none)
    (started : (List.range cache.started).map some =
      (List.range τ.cache.started).map some ++ if call.starts then [call.transfer] else []) :
    Coherent ⟨cache, τ.calls ++ [call]⟩ := by
  refine ⟨orderly, ?_, ?_, ?_, ?_⟩
  · intro ticket mem
    simp only [tickets, List.map_append, List.mem_append, List.map_singleton,
      List.mem_singleton] at mem
    rcases mem with old | rfl
    · exact (h.fits ticket old).mono location
    · exact fits
  · intro call' mem t ht o ho
    rw [outcome]
    rcases List.mem_append.mp mem with old | new
    · exact h.answered call' old t ht o ho
    · obtain rfl := List.mem_singleton.mp new
      simp [fresh, Option.mem_def.mp ht] at ho
  · intro call' mem none
    rcases List.mem_append.mp mem with old | new
    · exact h.refused call' old none
    · obtain rfl := List.mem_singleton.mp new
      rw [fresh, if_pos none]
  · rw [started, ← h.starters]
    cases starts : call.starts <;> simp [tickets, starts]

/-- **Every move keeps calls in line.** -/
theorem Move.coherent (m : Move τ τ') (h : Coherent τ) : Coherent τ' := by
  cases m with
  | refused =>
    exact h.append h.orderly (fun _ _ => id) (fun _ => rfl) ⟨rfl, rfl⟩ rfl
      (List.append_nil _).symm
  | @joined location t entry =>
    have own := h.orderly.own _ (ModuleCache.mem_of_get?_eq_some entry)
    exact h.append h.orderly (fun _ _ => id) (fun _ => rfl) own rfl (List.append_nil _).symm
  | @started location named new =>
    refine h.append (h.orderly.start named new) ?_ ?_ ?_ rfl ?_
    · intro t l found
      rw [ModuleCache.location?_start, if_neg (Nat.ne_of_lt (ModuleCache.lt_started found)), found]
    · exact ModuleCache.outcome?_start _ _
    · show ModuleCache.location? _ _ = _
      rw [ModuleCache.location?_start, if_pos rfl]
    · rw [ModuleCache.started_start, List.range_succ, List.map_append]
      rfl
  | @told i t call o found awaits settled =>
    obtain ⟨-, -, transfer⟩ := LoadCall.awaits?_eq_some_iff.mp awaits
    have kept := h.recache (h.orderly.learn t o) (by simp [ModuleCache.started])
      (by simp [ModuleCache.location?]) (by simp [ModuleCache.outcome?])
    refine kept.answer found transfer ?_
    simpa [ModuleCache.outcome?] using settled
  | @saw i t call o found awaits inFlight =>
    obtain ⟨-, -, transfer⟩ := LoadCall.awaits?_eq_some_iff.mp awaits
    have kept := h.recache (h.orderly.bring t o) (ModuleCache.started_bring _ _ _)
      (ModuleCache.location?_bring _ _ _)
      (fun t' o' settled => ModuleCache.outcome?_bring_of_settled inFlight settled o)
    have placed := (h.fits _ (List.mem_of_getElem? (getElem?_tickets found))).located transfer
    exact kept.answer found transfer
      (ModuleCache.outcome?_bring_self (ModuleCache.lt_started placed) o)
  | dropped i => exact h.drop i

theorem Coherent.invalidate (h : Coherent τ) (scope : Option String) :
    Coherent (τ.step (.invalidate scope)) := by
  cases scope with
  | none => exact h.recache (h.orderly.invalidate none) rfl (fun _ => rfl) fun _ _ => id
  | some location =>
    exact h.recache (h.orderly.invalidate (some location)) rfl (fun _ => rfl) fun _ _ => id

/-- **Every run keeps calls in line.** -/
theorem Coherent.run (h : Coherent τ) (actions : List Action) : Coherent (τ.run actions) :=
  keeps_run Move.coherent (fun scope h => h.invalidate scope) h actions

theorem coherent_empty : Coherent {} :=
  ⟨ModuleCache.orderly_empty, nofun, nofun, nofun, rfl⟩

end Traffic

end Cadence
