import Cadence.Proofs.Module.Traffic

/-!
# Shared transfers of a module cache

All calls of a transfer are answered alike, and a transfer is started only where the location has no
entry. An entry goes with a failure or in an invalidation, and each of them pays for one transfer
more.

* `Traffic.Gets`: a call is answered, now or when it looks again;
* `ModuleCache.begun`, `ModuleCache.failures`, `Traffic.removals`: what is counted;
* `ModuleCache.Balanced`, `Traffic.Coherent.balanced_run`: the balance that every run keeps;
* **`Traffic.transfers_shared`**: calls that join a transfer are answered as the one that started
  it, and transfers are counted by failures and removals.
-/

namespace Cadence

/-- A transfer has failed. -/
def Transfer.failed (tr : Transfer) : Bool :=
  match tr.outcome with
  | some (.error _) => true
  | _ => false

@[simp] theorem Transfer.failed_inFlight (location : String) :
    (⟨location, none⟩ : Transfer).failed = false := rfl

@[simp] theorem Transfer.failed_ok (location : String) (m : Module) :
    (⟨location, some (.ok m)⟩ : Transfer).failed = false := rfl

@[simp] theorem Transfer.failed_error (location : String) (f : LoadFault) :
    (⟨location, some (.error f)⟩ : Transfer).failed = true := rfl

namespace ModuleCache

/-- The number of transfers of a location. -/
def begun (c : ModuleCache) (location : String) : Nat :=
  c.transfers.countP fun tr => tr.location = location

/-- The number of transfers of a location that have failed. -/
def failures (c : ModuleCache) (location : String) : Nat :=
  c.transfers.countP fun tr => tr.location = location && tr.failed

variable {c : ModuleCache} {t n : Nat} {o : Loaded} {location : String}

/-! ## The balance of a location -/

/-- Every transfer of a location has its entry, or has failed, or is among `n` that lost it. -/
def Balanced (location : String) (n : Nat) (c : ModuleCache) : Prop :=
  c.begun location ≤ (c.contains location).toNat + c.failures location + n

theorem contains_iff_mem : c.contains location = true ↔ ∃ e ∈ c.entries, e.1 = location := by
  rw [contains, Entries.contains_iff, Entries.keys, List.mem_map]

theorem Balanced.start (h : c.Balanced location n) {l : String}
    (new : Entries.get? l c.entries = none) : (c.start l).Balanced location n := by
  have contains : (c.start l).contains location = (c.contains location || l = location) := by
    rw [Bool.eq_iff_iff]
    simp [contains_iff_mem, ModuleCache.start, or_and_right, exists_or]
  have absent : c.contains l = false := Entries.get?_eq_none_iff.mp new
  unfold Balanced begun failures at h ⊢
  rw [contains]
  simp only [ModuleCache.start, List.countP_append, List.countP_singleton,
    Transfer.failed_inFlight]
  by_cases eq : l = location
  · subst eq
    simp [absent] at h ⊢
    omega
  · simpa [eq] using h

theorem exists_transfers_bring (lt : t < c.started) (inFlight : c.outcome? t = none) (o : Loaded) :
    ∃ before location later, c.transfers = before ++ ⟨location, none⟩ :: later ∧
      (c.bring t o).transfers = before ++ ⟨location, some o⟩ :: later ∧
      c.location? t = some location := by
  obtain ⟨before, tr, later, eq, length, settled⟩ :=
    List.exists_of_modify (fun tr : Transfer => { tr with outcome := some o }) lt
  have found : c.transfers[t]? = some tr := by
    rw [eq, ← length]
    simp
  have open_ : tr.outcome = none := by simpa [outcome?, found] using inFlight
  refine ⟨before, tr.location, later, ?_, ?_, ?_⟩
  · rw [eq, ← open_]
  · simp only [bring, transfers_learn, settle]
    rw [settled]
  · simp [location?, found]

/-- An entry that goes with a failure is paid for by the failure. -/
theorem Balanced.bring (h : c.Balanced location n) (orderly : c.Orderly) (lt : t < c.started)
    (inFlight : c.outcome? t = none) (o : Loaded) : (c.bring t o).Balanced location n := by
  obtain ⟨before, l, later, eq, settled, placed⟩ := exists_transfers_bring lt inFlight o
  unfold Balanced begun failures at h ⊢
  rw [settled]
  rw [eq] at h
  simp only [List.countP_append, List.countP_cons, Transfer.failed_inFlight] at h ⊢
  cases o with
  | ok m => simpa [ModuleCache.bring, settle, learn, contains] using h
  | error f =>
    by_cases eq : l = location
    · have := Bool.toNat_le (c.contains location)
      simp [eq] at h ⊢
      omega
    · have contains : (c.bring t (.error f)).contains location = c.contains location := by
        rw [Bool.eq_iff_iff, contains_iff_mem, contains_iff_mem]
        constructor
        · rintro ⟨e, mem, rfl⟩
          exact ⟨e, (entries_bring_sublist c t _).subset mem, rfl⟩
        · rintro ⟨e, mem, rfl⟩
          refine ⟨e, List.mem_filter.mpr ⟨mem, ?_⟩, rfl⟩
          have other : e.2 ≠ t := by
            rintro rfl
            rw [orderly.own e mem] at placed
            exact eq (Option.some.inj placed).symm
          simpa using other
      rw [contains]
      simpa [eq] using h

theorem Orderly.learn_settled (h : c.Orderly) (settled : c.outcome? t = some o) :
    c.learn t o = c := by
  cases o with
  | ok m => rfl
  | error f =>
    have kept : c.entries.filter (·.2 ≠ t) = c.entries := by
      refine List.filter_eq_self.mpr fun e mem => ?_
      have other : e.2 ≠ t := by
        rintro rfl
        exact h.sound e mem f settled
      simpa using other
    show { c with entries := _ } = c
    rw [kept]

end ModuleCache

namespace Traffic

variable {τ τ' : Traffic} {location : String} {n : Nat}

theorem Move.balanced (m : Move τ τ') (h : Coherent τ ∧ τ.cache.Balanced location n) :
    Coherent τ' ∧ τ'.cache.Balanced location n := by
  refine ⟨m.coherent h.1, ?_⟩
  cases m with
  | refused | joined | dropped => exact h.2
  | started named new => exact h.2.start new
  | told found awaits settled =>
    rw [h.1.orderly.learn_settled settled]
    exact h.2
  | saw o found awaits inFlight =>
    obtain ⟨-, -, transfer⟩ := LoadCall.awaits?_eq_some_iff.mp awaits
    have placed := (h.1.fits _ (List.mem_of_getElem? (getElem?_tickets found))).located transfer
    exact h.2.bring h.1.orderly (ModuleCache.lt_started placed) inFlight o

/-- The action is an invalidation that removes an entry of the location. -/
def Action.removes (τ : Traffic) (location : String) : Action → Bool
  | .invalidate scope =>
    τ.cache.contains location && !(τ.cache.invalidate scope).contains location
  | _ => false

/-- The number of invalidations in a run that remove an entry of a location. -/
def removals (location : String) (τ : Traffic) : List Action → Nat
  | [] => 0
  | a :: actions => (a.removes τ location).toNat + removals location (τ.step a) actions

theorem balanced_invalidate (h : τ.cache.Balanced location n) (scope : Option String) :
    (τ.step (.invalidate scope)).cache.Balanced location
      (n + ((Action.invalidate scope).removes τ location).toNat) := by
  have transfers : (τ.cache.invalidate scope).transfers = τ.cache.transfers := by
    cases scope <;> rfl
  have paid : (τ.cache.contains location).toNat ≤
      ((τ.cache.invalidate scope).contains location).toNat +
        ((Action.invalidate scope).removes τ location).toNat := by
    show _ ≤ _ + (τ.cache.contains location &&
      !(τ.cache.invalidate scope).contains location).toNat
    generalize τ.cache.contains location = before
    generalize (τ.cache.invalidate scope).contains location = after
    revert before after
    decide
  unfold ModuleCache.Balanced ModuleCache.begun ModuleCache.failures at h ⊢
  show (τ.cache.invalidate scope).transfers.countP _ ≤
    ((τ.cache.invalidate scope).contains location).toNat +
      (τ.cache.invalidate scope).transfers.countP _ + _
  rw [transfers]
  omega

/-- **Every run keeps the balance of a location**, with its removals added. -/
theorem Coherent.balanced_run (h : Coherent τ) (balanced : τ.cache.Balanced location n)
    (actions : List Action) :
    (τ.run actions).cache.Balanced location (n + removals location τ actions) := by
  induction actions generalizing τ n with
  | nil => exact balanced
  | cons a actions ih =>
    have next : Coherent (τ.step a) := h.run [a]
    have kept : (τ.step a).cache.Balanced location (n + (a.removes τ location).toNat) := by
      rcases moves_step τ a with m | ⟨scope, rfl⟩
      · have := (m.keeps Move.balanced ⟨h, balanced⟩).2
        exact Nat.le_trans this (by omega)
      · exact balanced_invalidate balanced scope
    have run := ih next kept
    rwa [Nat.add_assoc] at run

/-! ## Answers -/

/-- The call is answered with `o`, or it is when it looks again, unless it is given up. -/
def Gets (τ : Traffic) (i : Nat) (o : Loaded) : Prop :=
  ∃ call, τ.calls[i]? = some call ∧ (call.answer = some o ∨ call.answer = none ∧
    (call.dropped = false → ∀ arrived, ∃ call', (τ.look i arrived).calls[i]? = some call' ∧
      call'.answer = some o))

theorem Coherent.gets (h : Coherent τ) {i t : Nat} {call : LoadCall} {o : Loaded}
    (found : τ.calls[i]? = some call) (transfer : call.transfer = some t)
    (settled : τ.cache.outcome? t = some o) : τ.Gets i o := by
  refine ⟨call, found, ?_⟩
  cases answer : call.answer with
  | some o' =>
    have told := h.answered call (List.mem_of_getElem? found) t transfer o' answer
    exact .inl (told.symm.trans settled)
  | none =>
    refine .inr ⟨rfl, fun waits arrived => ⟨{ call with answer := some o }, ?_, rfl⟩⟩
    have awaits := LoadCall.awaits?_eq_some_iff.mpr ⟨answer, waits, transfer⟩
    obtain ⟨lt, -⟩ := List.getElem?_eq_some_iff.mp found
    rw [look_eq found awaits, ModuleCache.poll_settled settled]
    simp [lt]

theorem Coherent.exists_starter (h : Coherent τ) {t : Nat} (lt : t < τ.cache.started) :
    ∃ (i : Nat) (call : LoadCall), τ.calls[i]? = some call ∧ call.starts = true ∧
      call.transfer = some t := by
  have mem : some t ∈ (τ.tickets.filter (·.starts)).map (·.transfer) := by
    rw [h.starters]
    simpa using lt
  obtain ⟨ticket, kept, transfer⟩ := List.mem_map.mp mem
  obtain ⟨old, starts⟩ := List.mem_filter.mp kept
  obtain ⟨call, listed, rfl⟩ := List.mem_map.mp old
  obtain ⟨i, found⟩ := List.mem_iff_getElem?.mp listed
  exact ⟨i, call, found, starts, transfer⟩

theorem Coherent.countP_starts (h : Coherent τ) :
    τ.calls.countP (·.starts) = τ.cache.started := by
  have length := congrArg List.length h.starters
  rw [List.length_map, List.length_map, List.length_range] at length
  rw [← length, tickets, List.filter_map, List.length_map, List.countP_eq_length_filter]
  rfl

/-! ## Sharing -/

/-- **Calls share transfers.** A call for a location with an entry joins its transfer and starts
none; if the transfer has settled, it is answered at once. Of all calls of a transfer one has
started it, and an answer to this one or to another of them is the answer to both, when they look
again at the latest. The transfers of a location are at most one more than those that failed and the
invalidations that removed an entry of it. An empty location changes nothing and has neither entry
nor transfer. -/
theorem transfers_shared (actions : List Action) :
    let τ := run {} actions
    (∀ location t arrived, Entries.get? location τ.cache.entries = some t →
      let σ := τ.step (.load location arrived)
      σ.cache.started = τ.cache.started ∧
      ∃ answer, σ.calls = τ.calls ++ [{ location, transfer := some t, answer }] ∧
        ∀ o, τ.cache.outcome? t = some o → answer = some o) ∧
    τ.calls.countP (·.starts) = τ.cache.started ∧
    (∀ j b t, τ.calls[j]? = some b → b.starts = false → b.transfer = some t →
      ∃ i a, τ.calls[i]? = some a ∧ a.starts = true ∧ a.transfer = some t ∧
        a.location = b.location ∧
        ∀ o, a.answer = some o ∨ b.answer = some o → τ.Gets i o ∧ τ.Gets j o) ∧
    (∀ location, τ.cache.begun location ≤
      1 + τ.cache.failures location + removals location {} actions) ∧
    (∀ arrived, (τ.step (.load "" arrived)).cache = τ.cache) ∧
    τ.cache.contains "" = false ∧ τ.cache.begun "" = 0 := by
  intro τ
  have coherent : Coherent τ := coherent_empty.run actions
  refine ⟨?_, coherent.countP_starts, ?_, ?_, fun arrived => rfl, ?_, ?_⟩
  · intro location t arrived entry σ
    have own := coherent.orderly.own _ (ModuleCache.mem_of_get?_eq_some entry)
    have named : location ≠ "" := by
      rintro rfl
      exact coherent.orderly.named t own
    have began : σ = _ := load_join named entry arrived
    rw [began, look_last rfl]
    refine ⟨ModuleCache.started_poll _ _ _, _, rfl, fun o settled => ?_⟩
    rw [ModuleCache.poll_settled settled]
  · intro j b t joined _ transfer
    have fits := coherent.fits _ (List.mem_of_getElem? (getElem?_tickets joined))
    have placed := fits.located transfer
    obtain ⟨i, a, found, starts, same⟩ := coherent.exists_starter (ModuleCache.lt_started placed)
    have fits' := coherent.fits _ (List.mem_of_getElem? (getElem?_tickets found))
    have placed' := fits'.located same
    refine ⟨i, a, found, starts, same, ?_, fun o answer => ?_⟩
    · exact Option.some.inj (placed'.symm.trans placed)
    · have settled : τ.cache.outcome? t = some o := by
        rcases answer with first | second
        · exact coherent.answered a (List.mem_of_getElem? found) t same o first
        · exact coherent.answered b (List.mem_of_getElem? joined) t transfer o second
      exact ⟨coherent.gets found same settled, coherent.gets joined transfer settled⟩
  · intro location
    have empty : ({} : ModuleCache).Balanced location 0 := Nat.zero_le _
    have balanced : τ.cache.Balanced location (0 + removals location {} actions) :=
      coherent_empty.balanced_run empty actions
    have one := Bool.toNat_le (τ.cache.contains location)
    unfold ModuleCache.Balanced at balanced
    omega
  · rw [← Bool.not_eq_true, ModuleCache.contains_iff_mem]
    rintro ⟨e, mem, empty⟩
    exact coherent.orderly.named e.2 (empty ▸ coherent.orderly.own e mem)
  · refine List.countP_eq_zero.mpr fun tr mem => ?_
    obtain ⟨t, found⟩ := List.mem_iff_getElem?.mp mem
    have named := coherent.orderly.named t
    simpa [ModuleCache.location?, found] using named

/-- A second call joins a transfer and sees it fail before the first one does. Then another call
comes. -/
def joinedFailure : List Action :=
  [.load "m" none, .load "m" none, .resume 1 (some (.error (.transfer 404 "gone"))),
    .load "m" none]

/-- The failure is the answer to the first call too, and pays for the second transfer. -/
theorem transfers_shared_of_joinedFailure :
    let fault := LoadFault.transfer 404 "gone"
    let τ := run {} joinedFailure
    (∃ i a, τ.calls[i]? = some a ∧ a.starts = true ∧ a.transfer = some 0 ∧
      τ.Gets i (.error fault)) ∧
    τ.cache.begun "m" = 2 ∧ 2 ≤ 1 + τ.cache.failures "m" + removals "m" {} joinedFailure := by
  intro fault τ
  obtain ⟨-, -, shared, counted, -⟩ := transfers_shared joinedFailure
  obtain ⟨i, a, found, starts, transfer, -, alike⟩ := shared 1 _ 0 rfl rfl rfl
  exact ⟨⟨i, a, found, starts, transfer, (alike (.error fault) (.inr rfl)).1⟩, rfl, counted "m"⟩

end Traffic

end Cadence
