import Cadence.Module.Basic

/-!
# The module cache

The cache maps a location to a transfer. Callers of one location share its transfer, in flight or
settled; a caller that learns of a failure removes the entry, unless the entry belongs to a newer
transfer by then. Every change is one action, so that histories of any number of callers are lists
of actions.

* `Transfer`, `ModuleCache`: transfers in the order of their start, and the entries;
* `ModuleCache.enter`: a caller joins the entry of its location or starts a transfer;
* `ModuleCache.poll`, `ModuleCache.finish`: a caller looks at its transfer, which may or does settle
  at that moment;
* `ModuleCache.invalidate`: forget one location, or all of them;
* `ModuleCache.load`, `ModuleCache.loadAll`: one caller, and several at once, over a source.
-/

namespace Cadence

/-- What a transfer brings. -/
abbrev Loaded := Except LoadFault Module

/-- A transfer and what it brought, if it has settled. -/
structure Transfer where
  location : String
  outcome : Option Loaded := none

/-- Entries point at transfers by their number. -/
structure ModuleCache where
  entries : List (String × Nat) := []
  transfers : List Transfer := []

instance : Inhabited ModuleCache := ⟨{}⟩

namespace ModuleCache

/-- The location has an entry. -/
def contains (c : ModuleCache) (location : String) : Bool := Entries.contains location c.entries

/-- The number of entries. -/
def size (c : ModuleCache) : Nat := c.entries.length

/-- The number of transfers started so far. -/
def started (c : ModuleCache) : Nat := c.transfers.length

/-- The outcome of a transfer that has settled. -/
def outcome? (c : ModuleCache) (t : Nat) : Option Loaded := (c.transfers[t]?).bind (·.outcome)

/-- A caller joins the entry of its location, or starts a transfer and makes an entry for it. An
empty location is refused and leaves no trace. -/
def enter (c : ModuleCache) (location : String) : ModuleCache × Except LoadFault Nat :=
  if location.isEmpty then (c, .error .emptyLocation)
  else
    match Entries.get? location c.entries with
    | some t => (c, .ok t)
    | none =>
      (⟨c.entries ++ [(location, c.started)], c.transfers ++ [⟨location, none⟩]⟩, .ok c.started)

/-- Remove the entry that points at a transfer. -/
def evict (c : ModuleCache) (t : Nat) : ModuleCache :=
  { c with entries := c.entries.filter (·.2 ≠ t) }

/-- Record the outcome of a transfer. -/
def settle (c : ModuleCache) (t : Nat) (o : Loaded) : ModuleCache :=
  { c with transfers := c.transfers.modify t fun tr => { tr with outcome := some o } }

/-- A caller learns an outcome; a failure evicts the transfer's own entry. -/
def learn (c : ModuleCache) (t : Nat) : Loaded → ModuleCache
  | .ok _ => c
  | .error _ => c.evict t

/-- A caller looks at its transfer, which has arrived with `o` if it has not settled before. -/
def finish (c : ModuleCache) (t : Nat) (o : Loaded) : ModuleCache × Loaded :=
  match c.outcome? t with
  | some o' => (c.learn t o', o')
  | none => ((c.settle t o).learn t o, o)

/-- A caller looks at its transfer. If that is in flight, `arrived` is what has arrived by now. -/
def poll (c : ModuleCache) (t : Nat) (arrived : Option Loaded) : ModuleCache × Option Loaded :=
  match c.outcome? t, arrived with
  | some o, _ => (c.learn t o, some o)
  | none, none => (c, none)
  | none, some o => ((c.settle t o).learn t o, some o)

/-- Forget one location, or every entry. -/
def invalidate (c : ModuleCache) : Option String → ModuleCache
  | none => { c with entries := [] }
  | some location => { c with entries := Entries.erase location c.entries }

/-- The number of earlier transfers of a transfer's location. -/
def ordinal (c : ModuleCache) (t : Nat) : Nat :=
  match c.transfers[t]? with
  | none => 0
  | some tr => (c.transfers.take t).countP (·.location = tr.location)

/-- What the transfers of a location bring, by their ordinal. -/
abbrev Source := String → Nat → Loaded

/-- What a transfer of a location brings. -/
def arrival (c : ModuleCache) (source : Source) (location : String) (t : Nat) : Loaded :=
  source location (c.ordinal t)

/-- A caller that has entered: refused, waiting for a transfer, or answered. -/
inductive Caller
  | refused (cause : LoadFault)
  | waiting (location : String) (transfer : Nat)
  | answered (transfer : Nat) (outcome : Loaded)

/-- The first look of a caller. A transfer that it starts itself is in flight; one that is already
in flight settles now. -/
def firstPoll (c : ModuleCache) (source : Source) (location : String) : ModuleCache × Caller :=
  match c.enter location with
  | (c, .error cause) => (c, .refused cause)
  | (c', .ok t) =>
    let arrived := if c.started < c'.started then none else some (c'.arrival source location t)
    match c'.poll t arrived with
    | (c', some o) => (c', .answered t o)
    | (c', none) => (c', .waiting location t)

/-- The module and the transfer it came from. -/
def withTransfer (t : Nat) (o : Loaded) : Except LoadFault (Nat × Module) := o.map (t, ·)

/-- The last look of a caller, by which time its transfer has arrived. -/
def lastPoll (c : ModuleCache) (source : Source) :
    Caller → ModuleCache × Except LoadFault (Nat × Module)
  | .refused cause => (c, .error cause)
  | .answered t o => (c, withTransfer t o)
  | .waiting location t =>
    let (c, o) := c.finish t (c.arrival source location t)
    (c, withTransfer t o)

/-- Load one location. -/
def load (c : ModuleCache) (source : Source) (location : String) :
    ModuleCache × Except LoadFault (Nat × Module) :=
  let (c, caller) := c.firstPoll source location
  c.lastPoll source caller

/-- Let each of several callers look in turn. -/
def inTurn (look : ModuleCache → α → ModuleCache × β) (c : ModuleCache) :
    List α → ModuleCache × List β
  | [] => (c, [])
  | a :: as =>
    let (c, b) := look c a
    let (c, bs) := inTurn look c as
    (c, b :: bs)

/-- Load several locations at once: every caller takes its first look, then every one its last. -/
def loadAll (c : ModuleCache) (source : Source) (locations : List String) :
    ModuleCache × List (Except LoadFault (Nat × Module)) :=
  let (c, callers) := inTurn (fun c l => c.firstPoll source l) c locations
  inTurn (fun c w => c.lastPoll source w) c callers

end ModuleCache

end Cadence
