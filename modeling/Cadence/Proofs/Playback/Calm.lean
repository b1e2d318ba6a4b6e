import Cadence.Proofs.Playback.Move

/-!
# Calm listeners

A broadcast hands control to the listeners, and they may stop playback or start it. Calm listeners
leave playback alone: they panic at most, or come and go.

* `Reaction.Calm`, `Listener.Calm`: listeners that leave playback alone, and so do all that they
  register;
* `Session.broadcasts`: the snapshots that were broadcast, in their order;
* `Session.Chatter`: listeners hear something, come and go, and that is all;
* **`Session.chatter_notify`**: that is all a broadcast to calm listeners does;
* `Session.exists_tell_eq`: what is left of a job after its snapshot was broadcast.
-/

namespace Cadence

variable {ε : Type}

/-- A reaction that leaves playback alone. -/
inductive Reaction.Calm : Reaction → Prop
  | panic : Calm .panic
  | subscribe (name : String) {listener : Listener}
      (calm : ∀ calls snapshot, ∀ r ∈ listener calls snapshot, Calm r) :
      Calm (.subscribe name listener)
  | unsubscribe (name : String) : Calm (.unsubscribe name)

/-- A listener that leaves playback alone. -/
def Listener.Calm (listener : Listener) : Prop :=
  ∀ calls snapshot, ∀ r ∈ listener calls snapshot, r.Calm

/-- The snapshots that were broadcast according to a log. -/
def SessionEvent.broadcasts : List (SessionEvent ε) → List Snapshot
  | [] => []
  | .broadcast snapshot :: log => broadcasts log ++ [snapshot]
  | _ :: log => broadcasts log

namespace Session

/-- The snapshots that were broadcast, in their order. -/
def broadcasts (s : Session ε) : List Snapshot := SessionEvent.broadcasts s.log

/-- All listeners are calm. -/
def Calm (s : Session ε) : Prop := ∀ u ∈ s.subscribers, u.listener.Calm

/-- Calm listeners have heard something, come and gone, and nothing else has happened. -/
def Chatter (s s' : Session ε) : Prop :=
  ∃ subscribers names nextSubscriber log,
    s' = { s with subscribers, names, nextSubscriber, log } ∧ s'.Calm ∧
      s'.broadcasts = s.broadcasts

variable {s s' s'' : Session ε}

theorem Chatter.calm (h : Chatter s s') : s'.Calm := by
  obtain ⟨_, _, _, _, _, calm, _⟩ := h
  exact calm

theorem Chatter.refl (calm : s.Calm) : Chatter s s := ⟨_, _, _, _, rfl, calm, rfl⟩

theorem Chatter.trans (h : Chatter s s') (h' : Chatter s' s'') : Chatter s s'' := by
  obtain ⟨_, _, _, _, rfl, -, same⟩ := h
  obtain ⟨us, names, next, log, rfl, calm, same'⟩ := h'
  exact ⟨us, names, next, log, rfl, calm, same'.trans same⟩

theorem chatter_subscribe (calm : s.Calm) (name : String) {listener : Listener}
    (new : listener.Calm) : Chatter s (s.subscribe name listener) := by
  refine ⟨_, _, _, _, rfl, fun u mem => ?_, rfl⟩
  rcases List.mem_append.mp mem with old | added
  · exact calm u old
  · rw [List.mem_singleton.mp added]
    exact new

theorem chatter_unsubscribe (calm : s.Calm) (name : String) : Chatter s (s.unsubscribe name) := by
  unfold unsubscribe
  split
  · exact .refl calm
  · exact ⟨_, _, _, _, rfl, fun u mem => calm u (List.mem_filter.mp mem).1, rfl⟩

theorem chatter_react {reactions : List Reaction} (reactionsCalm : ∀ r ∈ reactions, r.Calm)
    (calm : s.Calm) : Chatter s (s.react reactions) := by
  induction reactions generalizing s with
  | nil => exact .refl calm
  | cons r rest ih =>
    obtain ⟨first, restCalm⟩ := List.forall_mem_cons.mp reactionsCalm
    have next {s' : Session ε} (h : Chatter s s') : Chatter s (s'.react rest) :=
      h.trans (ih restCalm h.calm)
    cases first with
    | panic => exact .refl calm
    | subscribe name new => exact next (chatter_subscribe calm name new)
    | unsubscribe name => exact next (chatter_unsubscribe calm name)

theorem chatter_deliver (calm : s.Calm) (snapshot : Snapshot) {u : Subscriber}
    (called : u.listener.Calm) : Chatter s (deliver snapshot s u) := by
  have counted : Chatter s ((s.note (.heard u.id u.name s.playing snapshot)).countCall u.id) := by
    refine ⟨_, _, _, _, rfl, fun v mem => ?_, rfl⟩
    obtain ⟨w, old, rfl⟩ := List.mem_map.mp mem
    have kept := calm w old
    split
    · exact kept
    · exact kept
  exact counted.trans (chatter_react (called _ _) counted.calm)

theorem chatter_deliverAll {us : List Subscriber} (called : ∀ u ∈ us, u.listener.Calm)
    (calm : s.Calm) (snapshot : Snapshot) : Chatter s (us.foldl (deliver snapshot) s) := by
  induction us generalizing s with
  | nil => exact .refl calm
  | cons u us ih =>
    obtain ⟨first, rest⟩ := List.forall_mem_cons.mp called
    have delivered := chatter_deliver calm snapshot first
    exact delivered.trans (ih rest delivered.calm)

/-- **A broadcast to calm listeners** has no other effects than on the listeners. -/
theorem chatter_notify (calm : s.Calm) (snapshot : Snapshot) : Chatter s (s.notify snapshot) :=
  chatter_deliverAll calm calm snapshot

theorem exists_tell_eq (calm : s.Calm) (snapshot : Snapshot) (job : Nat)
    (result : Option Snapshot) :
    ∃ subscribers names nextSubscriber log,
      ((s.announce snapshot).notify snapshot).note (.finished job result) =
        { s with last := snapshot, subscribers, names, nextSubscriber, log } ∧
      (∀ u ∈ subscribers, u.listener.Calm) ∧
      SessionEvent.broadcasts log = s.broadcasts ++ [snapshot] := by
  have announced : (s.announce snapshot).Calm := calm
  obtain ⟨us, names, next, log, eq, heard, same⟩ := chatter_notify announced snapshot
  rw [eq] at heard same ⊢
  exact ⟨us, names, next, _, rfl, heard, same⟩

end Session

end Cadence
