import Cadence.Engine.Snapshot

/-!
# Listeners

A listener is called with every snapshot that a session broadcasts. It may panic, and it may react
with operations on playback and on the list of listeners.

* `Reaction`, `Listener`: what a listener does at its n-th call;
* `Listener.plain`, `Listener.onCall`, `Listener.always`: listeners that do nothing, one thing at
  one call, or one thing at every call;
* `Subscriber`: a registered listener.
-/

namespace Cadence

/-- What a listener does. A panic ends its call. -/
inductive Reaction
  | panic
  | pause
  | play (interval : Nat) (limit : Option Nat)
  | setInterval (interval : Nat)
  | subscribe (name : String) (listener : Nat → Snapshot → List Reaction)
  | unsubscribe (name : String)

/-- A listener reacts to a snapshot, knowing how often it was called before. -/
abbrev Listener := Nat → Snapshot → List Reaction

namespace Listener

/-- A listener that does nothing. -/
def plain : Listener := fun _ _ => []

/-- A listener that does one thing at its n-th call, counted from one. -/
def onCall (n : Nat) (r : Reaction) : Listener := fun calls _ => if calls + 1 = n then [r] else []

/-- A listener that does one thing at every call. -/
def always (r : Reaction) : Listener := fun _ _ => [r]

end Listener

/-- A registered listener, and how often it was called. -/
structure Subscriber where
  id : Nat
  name : String
  listener : Listener
  calls : Nat := 0

end Cadence
