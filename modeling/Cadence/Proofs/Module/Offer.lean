import Cadence.Proofs.Module.AtOnce

/-!
# What a cache has to offer

To those who load one location after the other, a cache is a table of modules. A load looks its
location up in the table, and asks the source only if there is nothing.

* `ModuleCache.module?`: the table of modules;
* `ModuleCache.Source.Steady`: a source whose answers depend on the location alone;
* `ModuleCache.offer`: what a load gives, according to the table;
* **`ModuleCache.Orderly.load_spec`**: a load gives what is on offer, and adds it to the table if it
  is a module; a load that fails leaves the table as it is.
-/

namespace Cadence

namespace Entries

variable {α : Type} {es : Entries α} {k : String}

theorem get?_concat (es : Entries α) (k l : String) (v : α) :
    get? l (es ++ [(k, v)]) = (get? l es).or (if k = l then some v else none) := by
  induction es with
  | nil => rfl
  | cons e es ih =>
    obtain ⟨k', v'⟩ := e
    by_cases here : k' = l
    · simp [get?, here]
    · simpa [get?, here] using ih

theorem get?_filter_of_nodup (unique : (es.map (·.1)).Nodup) (p : α → Bool) (k : String) :
    get? k (es.filter fun e => p e.2) = (get? k es).filter p := by
  induction es with
  | nil => rfl
  | cons e es ih =>
    obtain ⟨k', v⟩ := e
    obtain ⟨alone, others⟩ := List.nodup_cons.mp unique
    have ih := ih others
    by_cases here : k' = k
    · subst here
      have absent : get? k' es = none := by
        rw [get?_eq_none_iff, ← Bool.not_eq_true, contains_iff]
        exact alone
      rw [absent] at ih
      cases kept : p v with
      | true => simp [get?, kept, Option.filter_some]
      | false => simpa [get?, kept, Option.filter_some] using ih
    · cases kept : p v with
      | true => simpa [get?, here, kept] using ih
      | false => simpa [get?, here, kept] using ih

end Entries

namespace ModuleCache

variable {c : ModuleCache} {source : Source} {location : String} {t : Nat}

/-- The module that the cache holds for a location. -/
def module? (c : ModuleCache) (location : String) : Option Module :=
  ((Entries.get? location c.entries).bind c.outcome?).bind (·.toOption)

/-- What is brought depends on the location alone, and not on how often it was asked for. -/
def Source.Steady (source : Source) : Prop :=
  ∀ location j k, source location j = source location k

/-- What a load gives: the module in the cache, or else what the source has. -/
def offer (c : ModuleCache) (source : Source) (location : String) : Loaded :=
  if location = "" then .error .emptyLocation
  else
    match c.module? location with
    | some m => .ok m
    | none => source location 0

/-! ## The table of modules -/

theorem module?_start (c : ModuleCache) (location l : String) :
    (c.start location).module? l = c.module? l := by
  have inFlight : c.outcome? c.started = none := by simp [outcome?, started]
  have outcomes : (c.start location).outcome? = c.outcome? := funext (outcome?_start c location)
  unfold module?
  rw [outcomes]
  show ((Entries.get? l (c.entries ++ _)).bind _).bind _ = _
  rw [Entries.get?_concat]
  cases entry : Entries.get? l c.entries with
  | some t => rfl
  | none =>
    by_cases own : location = l
    · simp [own, inFlight]
    · simp [own]

theorem entry_eq (h : c.Orderly) {l : String} (entry : Entries.get? location c.entries = some t)
    (other : Entries.get? l c.entries = some t) : l = location := by
  have own := h.own _ (mem_of_get?_eq_some entry)
  have own' := h.own _ (mem_of_get?_eq_some other)
  exact Option.some.inj (own'.symm.trans own)

/-- **A transfer that settles** is in the table from then on, unless it has failed. -/
theorem module?_bring (h : c.Orderly) (entry : Entries.get? location c.entries = some t)
    (o : Loaded) (l : String) :
    (c.bring t o).module? l = if l = location then o.toOption else c.module? l := by
  have started : t < c.started := lt_started (h.own _ (mem_of_get?_eq_some entry))
  have self := outcome?_bring_self started o
  have entries : Entries.get? l (c.bring t o).entries =
      (Entries.get? l c.entries).filter fun t' => o.isOk || t' ≠ t := by
    cases o with
    | ok m =>
      show Entries.get? l c.entries = _
      cases Entries.get? l c.entries <;> rfl
    | error f => exact Entries.get?_filter_of_nodup h.keys (fun t' => decide (t' ≠ t)) l
  unfold module?
  rw [entries]
  by_cases own : l = location
  · subst own
    rw [if_pos rfl, entry]
    cases o with
    | ok m => simp [Option.filter_some, Except.isOk, Except.toBool, Except.toOption, self]
    | error f => simp [Option.filter_some, Except.isOk, Except.toBool, Except.toOption]
  · rw [if_neg own]
    cases other : Entries.get? l c.entries with
    | none => rfl
    | some t' =>
      have ne : t' ≠ t := fun eq => own (entry_eq h entry (eq ▸ other))
      simp [Option.filter_some, ne, outcome?_bring_of_ne c o ne]

/-! ## Loads -/

theorem offer_eq_of_module? {c' : ModuleCache} (same : ∀ l, c.module? l = c'.module? l)
    (source : Source) (location : String) : c.offer source location = c'.offer source location := by
  unfold offer
  rw [same]

theorem offer_of_new (named : location ≠ "") (new : c.module? location = none) (source : Source) :
    c.offer source location = source location 0 := by
  unfold offer
  rw [if_neg named, new]

/-- **A load gives what is on offer.** If that is a module, the table has it from then on; in no
other way does the table change. -/
theorem Orderly.load_spec (h : c.Orderly) (steady : source.Steady) (location : String) :
    (c.load source location).1.Orderly ∧
      (c.load source location).2.map (·.2) = c.offer source location ∧
      ∀ l, (c.load source location).1.module? l =
        if l = location then (c.offer source location).toOption else c.module? l := by
  have modules (t : Nat) (o : Loaded) : (withTransfer t o).map (·.2) = o := by cases o <;> rfl
  by_cases named : location = ""
  · subst named
    have unknown : Entries.get? "" c.entries = none := by
      cases entry : Entries.get? "" c.entries with
      | none => rfl
      | some t => exact absurd (h.own _ (mem_of_get?_eq_some entry)) (h.named t)
    refine ⟨h, rfl, fun l => ?_⟩
    by_cases own : l = ""
    · subst own
      show c.module? "" = _
      simp [module?, unknown, offer, Except.toOption]
    · rw [if_neg own]
      rfl
  cases entry : Entries.get? location c.entries with
  | some t =>
    have joined : c.firstPoll source location = _ := firstPoll_join named entry
    cases outcome : c.outcome? t with
    | some o =>
      cases o with
      | error f => exact absurd outcome (h.sound _ (mem_of_get?_eq_some entry) f)
      | ok m =>
        have found : c.module? location = some m := by
          simp [module?, entry, outcome, Except.toOption]
        have offered : c.offer source location = .ok m := by simp [offer, named, found]
        have loaded : c.load source location = (c, withTransfer t (.ok m)) := by
          unfold load
          rw [joined, poll_settled outcome]
          rfl
        rw [loaded, offered]
        refine ⟨h, rfl, fun l => ?_⟩
        by_cases own : l = location
        · rw [if_pos own, own, found]
          rfl
        · rw [if_neg own]
    | none =>
      have new : c.module? location = none := by simp [module?, entry, outcome]
      have loaded : c.load source location =
          (c.bring t (source location 0), withTransfer t (source location 0)) := by
        unfold load
        rw [joined, poll_arrived outcome, arrival, steady location _ 0]
        rfl
      rw [loaded, offer_of_new named new]
      exact ⟨h.bring t _, modules t _, module?_bring h entry _⟩
  | none =>
    have new : c.module? location = none := by simp [module?, entry]
    have begun := h.start named entry
    have inFlight : (c.start location).outcome? c.started = none := by
      rw [outcome?_start]
      simp [outcome?, started]
    have own : Entries.get? location (c.start location).entries = some c.started := by
      show Entries.get? location (c.entries ++ _) = _
      rw [Entries.get?_concat, entry]
      simp
    have loaded : c.load source location =
        ((c.start location).bring c.started (source location 0),
          withTransfer c.started (source location 0)) := by
      unfold load
      rw [firstPoll_start named entry, poll_inFlight inFlight]
      show (finish _ _ _ |>.1, withTransfer _ (finish _ _ _).2) = _
      unfold finish
      rw [inFlight, arrival, steady location _ 0]
      rfl
    rw [loaded, offer_of_new named new]
    refine ⟨begun.bring _ _, modules _ _, fun l => ?_⟩
    rw [module?_bring begun own, module?_start]

end ModuleCache

end Cadence
