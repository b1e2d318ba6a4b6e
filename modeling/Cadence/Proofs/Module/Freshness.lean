import Cadence.Proofs.Module.Traffic

/-!
# Failures and stale modules in a module cache

A transfer that fails loses its entry in the moment in which it settles, so that nobody joins it
later. An entry that is newer than a failure stays, and an entry that was forgotten never comes
back.

* `ModuleCache.mem_entries_poll`, `Traffic.mem_entries_load`: which entries a call removes;
* `Traffic.Renewed`: what holds from an invalidation on;
* **`Traffic.never_stale`**: no failure is kept, no newer entry is removed, and no module is
  returned whose transfer began before an invalidation that the call comes after.
-/

namespace Cadence

/-! ## Entries that a call removes -/

namespace ModuleCache

variable {c : ModuleCache}

theorem Orderly.get?_eq_none (h : c.Orderly) {t : Nat} {f : LoadFault} {location : String}
    (failed : c.outcome? t = some (.error f)) (placed : c.location? t = some location)
    (latest : ∀ t', c.location? t' = some location → t' ≤ t) :
    Entries.get? location c.entries = none := by
  cases entry : Entries.get? location c.entries with
  | none => rfl
  | some t' =>
    have mem := mem_of_get?_eq_some entry
    have eq : t = t' :=
      Nat.le_antisymm (h.latest _ mem t placed) (latest t' (h.own _ mem))
    exact absurd (eq ▸ failed) (h.sound _ mem f)

theorem mem_entries_poll {e : String × Nat} (mem : e ∈ c.entries) (t : Nat)
    (arrived : Option Loaded) :
    e ∈ (c.poll t arrived).1.entries ∨ e.2 = t ∧ ∃ f, (c.poll t arrived).2 = some (.error f) := by
  cases outcome : c.outcome? t with
  | some o =>
    rw [poll_settled outcome]
    simpa using mem_entries_learn mem
  | none =>
    cases arrived with
    | none =>
      rw [poll_inFlight outcome]
      exact .inl mem
    | some o =>
      rw [poll_arrived outcome]
      simpa [bring] using mem_entries_learn (c := c.settle t o) mem

end ModuleCache

namespace Traffic

variable {τ τ' : Traffic}

/-- The call has been told that its transfer, which has this number, failed. -/
def ToldFailure (τ : Traffic) (i t : Nat) : Prop :=
  ∃ call f, τ.calls[i]? = some call ∧ call.transfer = some t ∧ call.answer = some (.error f)

theorem mem_entries_look {e : String × Nat} (mem : e ∈ τ.cache.entries) (i : Nat)
    (arrived : Option Loaded) :
    e ∈ (τ.look i arrived).cache.entries ∨ (τ.look i arrived).ToldFailure i e.2 := by
  cases found : τ.calls[i]? with
  | none => simp [look, found, mem]
  | some call =>
    cases awaits : call.awaits? with
    | none => simp [look, found, awaits, mem]
    | some t =>
      rw [look_eq found awaits]
      rcases ModuleCache.mem_entries_poll mem t arrived with kept | ⟨rfl, f, failed⟩
      · exact .inl kept
      · obtain ⟨lt, -⟩ := List.getElem?_eq_some_iff.mp found
        refine .inr ⟨{ call with answer := some (.error f) }, f, ?_, ?_, rfl⟩
        · simp [lt, failed]
        · exact (LoadCall.awaits?_eq_some_iff.mp awaits).2.2

theorem mem_entries_load {e : String × Nat} (mem : e ∈ τ.cache.entries) (location : String)
    (arrived : Option Loaded) :
    e ∈ (τ.load location arrived).cache.entries ∨
      (τ.load location arrived).ToldFailure τ.calls.length e.2 := by
  by_cases named : location = ""
  · subst named
    exact .inl mem
  · cases entry : Entries.get? location τ.cache.entries with
    | some t =>
      rw [load_join named entry]
      exact mem_entries_look (τ := { τ with calls := τ.calls ++ [_] }) mem _ arrived
    | none =>
      rw [load_start named entry]
      exact mem_entries_look (τ := ⟨τ.cache.start location, τ.calls ++ [_]⟩)
        (List.mem_append_left _ mem) _ arrived

theorem mem_entries_invalidate {c : ModuleCache} {e : String × Nat} (mem : e ∈ c.entries)
    {scope : Option String} (kept : e ∉ (c.invalidate scope).entries) :
    scope = none ∨ scope = some e.1 := by
  cases scope with
  | none => exact .inl rfl
  | some location =>
    refine .inr (congrArg some ?_)
    by_contra other
    exact kept (List.mem_filter.mpr ⟨mem, by simpa using Ne.symm other⟩)

/-! ## From an invalidation on -/

/-- An invalidation is about every location, or about this one. -/
def Covers (scope : Option String) (location : String) : Prop :=
  scope = none ∨ scope = some location

/-- Entries that an invalidation was about, and calls for them that are not among the first `n`, are
for transfers from number `k` on. -/
structure Renewed (scope : Option String) (n k : Nat) (τ : Traffic) : Prop where
  started : k ≤ τ.cache.started
  entries : ∀ e ∈ τ.cache.entries, Covers scope e.1 → k ≤ e.2
  tickets : ∀ ticket ∈ τ.tickets.drop n, Covers scope ticket.location →
    ∀ t ∈ ticket.transfer, k ≤ t

variable {scope : Option String} {n k : Nat}

theorem renewed_invalidate (τ : Traffic) (scope : Option String) :
    Renewed scope τ.calls.length τ.cache.started
      (τ.step (.invalidate scope)) := by
  refine ⟨?_, ?_, ?_⟩
  · cases scope <;> exact Nat.le_refl _
  · intro e he covers
    cases scope with
    | none => cases he
    | some location =>
      have other := (List.mem_filter.mp he).2
      rcases covers with none | eq
      · cases none
      · simp [Option.some.inj eq] at other
  · intro ticket mem
    rw [List.drop_eq_nil_of_le (by simp [tickets, step])] at mem
    cases mem

theorem Renewed.thinned (h : Renewed scope n k τ) (started : τ'.cache.started = τ.cache.started)
    (entries : τ'.cache.entries ⊆ τ.cache.entries) (tickets : τ'.tickets = τ.tickets) :
    Renewed scope n k τ' := by
  refine ⟨started ▸ h.started, fun e he => h.entries e (entries he), ?_⟩
  rw [tickets]
  exact h.tickets

theorem Renewed.append (h : Renewed scope n k τ) {cache : ModuleCache} (started : k ≤ cache.started)
    (entries : ∀ e ∈ cache.entries, Covers scope e.1 → k ≤ e.2) {call : LoadCall}
    (new : Covers scope call.location → ∀ t ∈ call.transfer, k ≤ t) :
    Renewed scope n k ⟨cache, τ.calls ++ [call]⟩ := by
  refine ⟨started, entries, fun ticket mem => ?_⟩
  rw [Traffic.tickets, List.map_append, List.drop_append] at mem
  rcases List.mem_append.mp mem with old | late
  · exact h.tickets ticket old
  · rw [List.mem_singleton.mp (List.mem_of_mem_drop late)]
    exact new

theorem Move.renewed (m : Move τ τ') (h : Renewed scope n k τ) : Renewed scope n k τ' := by
  cases m with
  | refused =>
    refine h.append h.started h.entries ?_
    intro _ t eq
    cases eq
  | @joined location t entry =>
    refine h.append h.started h.entries ?_
    intro covers t' eq
    obtain rfl := Option.some.inj eq
    exact h.entries _ (ModuleCache.mem_of_get?_eq_some entry) covers
  | @started location =>
    refine h.append ?_ (fun e he => ?_) ?_
    · rw [ModuleCache.started_start]
      exact Nat.le_succ_of_le h.started
    · rcases List.mem_append.mp he with old | new
      · exact h.entries e old
      · rw [List.mem_singleton.mp new]
        exact fun _ => h.started
    · intro _ t' eq
      rw [← Option.some.inj eq]
      exact h.started
  | told found =>
    exact h.thinned (ModuleCache.started_learn _ _ _)
      (ModuleCache.entries_learn_sublist _ _ _).subset (tickets_set found _)
  | saw o found =>
    exact h.thinned (ModuleCache.started_bring _ _ _)
      (ModuleCache.entries_bring_sublist _ _ _).subset (tickets_set found _)
  | dropped i => exact h.thinned rfl (List.Subset.refl _) (tickets_drop τ i)

theorem Renewed.invalidate (h : Renewed scope n k τ) (scope' : Option String) :
    Renewed scope n k (τ.step (.invalidate scope')) := by
  refine h.thinned ?_ (ModuleCache.entries_invalidate_sublist _ scope').subset rfl
  cases scope' <;> rfl

theorem Coherent.transfer_of_ok (h : Coherent τ) {call : LoadCall} (mem : call ∈ τ.calls)
    {m : Module} (answer : call.answer = some (.ok m)) :
    ∃ t, call.transfer = some t ∧ τ.cache.outcome? t = some (.ok m) := by
  cases transfer : call.transfer with
  | none =>
    have refused := h.refused call mem transfer
    rw [answer] at refused
    cases refused
  | some t => exact ⟨t, rfl, h.answered call mem t transfer _ answer⟩

/-! ## Never stale -/

/-- **No failure is kept, and no module is stale.** After every action of a run, no entry is for a
transfer that has failed, and if the latest transfer of a location has failed then the next call for
it starts another one. An entry goes in an invalidation of its location, or in the look of a call of
its own transfer that is told a failure. A call that begins after an invalidation of its location
returns no module of a transfer that had begun before. -/
theorem never_stale (actions : List Action) :
    let τ := run {} actions
    (∀ e ∈ τ.cache.entries, ∀ f, τ.cache.outcome? e.2 ≠ some (.error f)) ∧
    (∀ t f location, τ.cache.outcome? t = some (.error f) → τ.cache.location? t = some location →
      (∀ t', τ.cache.location? t' = some location → t' ≤ t) →
      ∀ arrived, let σ := τ.step (.load location arrived)
        σ.cache.started = τ.cache.started + 1 ∧
        ∃ answer, σ.calls = τ.calls ++
          [{ location, transfer := some τ.cache.started, starts := true, answer }]) ∧
    (∀ action, ∀ e ∈ τ.cache.entries, e ∉ (τ.step action).cache.entries →
      (∃ scope, action = .invalidate scope ∧ Covers scope e.1) ∨
      (∃ location arrived, action = .load location arrived ∧
        (τ.step action).ToldFailure τ.calls.length e.2) ∨
      ∃ i arrived, action = .resume i arrived ∧ (τ.step action).ToldFailure i e.2) ∧
    ∀ scope later, let σ := (τ.step (.invalidate scope)).run later
      ∀ i call m, τ.calls.length ≤ i → σ.calls[i]? = some call → Covers scope call.location →
        call.answer = some (.ok m) →
        ∃ t, call.transfer = some t ∧ σ.cache.outcome? t = some (.ok m) ∧ τ.cache.started ≤ t := by
  intro τ
  have coherent : Coherent τ := coherent_empty.run actions
  refine ⟨coherent.orderly.sound, ?_, ?_, ?_⟩
  · intro t f location failed placed latest arrived σ
    have new := coherent.orderly.get?_eq_none failed placed latest
    have named : location ≠ "" := by
      rintro rfl
      exact coherent.orderly.named t placed
    have began : σ = _ := load_start named new arrived
    rw [began, look_last rfl]
    exact ⟨by simp, _, rfl⟩
  · intro action e mem gone
    cases action with
    | load location arrived =>
      refine .inr (.inl ⟨location, arrived, rfl, ?_⟩)
      exact (mem_entries_load mem location arrived).resolve_left gone
    | resume i arrived =>
      refine .inr (.inr ⟨i, arrived, rfl, ?_⟩)
      exact (mem_entries_look mem i arrived).resolve_left gone
    | drop i => exact absurd mem gone
    | invalidate scope => exact .inl ⟨scope, rfl, mem_entries_invalidate mem gone⟩
  · intro scope later σ i call m late found covers answer
    have kept : Coherent σ := coherent.run (.invalidate scope :: later)
    have fresh := renewed_invalidate τ scope
    have renewed : Renewed scope τ.calls.length τ.cache.started σ :=
      keeps_run Move.renewed (fun scope' h => h.invalidate scope') fresh later
    obtain ⟨t, transfer, brought⟩ := kept.transfer_of_ok (List.mem_of_getElem? found) answer
    refine ⟨t, transfer, brought, renewed.tickets _ ?_ covers t transfer⟩
    refine List.mem_iff_getElem?.mpr ⟨i - τ.calls.length, ?_⟩
    rw [List.getElem?_drop, Nat.add_sub_cancel' late]
    exact getElem?_tickets found

/-- A call whose transfer fails after its location was invalidated and loaded again. -/
def lateFailure : List Action :=
  [.load "m" none, .invalidate (some "m"), .load "m" none,
    .resume 0 (some (.error (.transfer 404 "gone")))]

/-- The second transfer is newer than the failure and keeps its entry until it fails itself. Then a
third one is started. If it arrives instead, its module is from after the invalidation. -/
theorem never_stale_of_lateFailure :
    let fault := LoadFault.transfer 404 "gone"
    let τ := run {} lateFailure
    let failing := τ.step (.resume 1 (some (.error fault)))
    let arriving := τ.step (.resume 1 (some (.ok default)))
    failing.ToldFailure 1 1 ∧ (failing.step (.load "m" none)).cache.started = 3 ∧
    ∃ call t, arriving.calls[1]? = some call ∧ call.answer = some (.ok default) ∧
      call.transfer = some t ∧ 1 ≤ t := by
  intro fault τ failing arriving
  refine ⟨?_, ?_, ?_⟩
  · have gone := (never_stale lateFailure).2.2.1 (.resume 1 (some (.error fault))) ("m", 1)
      List.mem_cons_self nofun
    rcases gone with ⟨scope, eq, -⟩ | ⟨location, arrived, eq, -⟩ | ⟨i, arrived, eq, told⟩
    · cases eq
    · cases eq
    · cases eq
      exact told
  · refine ((never_stale (lateFailure ++ [.resume 1 (some (.error fault))])).2.1 1 fault "m" rfl rfl
      ?_ none).1
    intro t found
    exact Nat.le_of_lt_succ (ModuleCache.lt_started found)
  · obtain ⟨t, transfer, -, le⟩ := (never_stale [.load "m" none]).2.2.2 (some "m")
      [.load "m" none, .resume 0 (some (.error fault)), .resume 1 (some (.ok default))] 1 _ default
      (Nat.le_refl 1) rfl (.inr rfl) rfl
    exact ⟨_, t, rfl, rfl, transfer, le⟩

end Traffic

end Cadence
