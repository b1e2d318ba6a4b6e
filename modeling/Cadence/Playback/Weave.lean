import Cadence.Playback.Session

/-!
# Sessions whose actions overlap

On several threads others may act between two critical sections of an action. What an action under
way has ahead is a thread, and threads are passed through in any order.

* `Weave`: a session and its threads;
* `Weave.owed`: the snapshots that are still to be broadcast;
* `Weave.commits?`: the snapshot with which a tick is to decide about playback;
* `Weave.Action`, `Weave.act`, `Weave.run`: actions start, and threads go on.
-/

namespace Cadence

/-- A session in the middle of actions. The threads stand in the order in which the actions have
started; one that is empty is done. -/
structure Weave (ε : Type) where
  session : Session ε := {}
  threads : List (List (Session.Section ε)) := []

/-- The snapshot that is broadcast in a critical section. -/
def Session.Section.told? {ε : Type} : Session.Section ε → Option Snapshot
  | .publish snapshot => some snapshot
  | _ => none

namespace Weave

variable {ε : Type}

/-- The snapshots that are still to be broadcast, in the order in which their jobs have left the
engine. -/
def owed (w : Weave ε) : List Snapshot := w.threads.flatMap (·.filterMap Session.Section.told?)

/-- The snapshot with which a tick is to decide about playback next in a thread, if it may act. -/
def commits? (w : Weave ε) (thread : Nat) : Option Snapshot :=
  match w.threads[thread]? with
  | some (.commit generation snapshot :: _) =>
    if w.session.isCurrent generation then some snapshot else none
  | _ => none

/-- An action starts, or a thread passes its next critical section. -/
inductive Action (ε : Type)
  | start (action : Session.Action ε)
  | pass (thread : Nat)

/-- A thread passes its next critical section, if it has one ahead. -/
def pass (w : Weave ε) (thread : Nat) : Weave ε :=
  match w.threads[thread]? with
  | some (s :: rest) => { session := w.session.pass s, threads := w.threads.set thread rest }
  | _ => w

/-- One action. -/
def act (S : Stepper ε) (w : Weave ε) : Action ε → Weave ε
  | .start action =>
    let turn := w.session.turn S action
    { session := turn.session, threads := w.threads ++ [turn.ahead] }
  | .pass thread => w.pass thread

/-- Actions in order. -/
def run (S : Stepper ε) (w : Weave ε) (actions : List (Action ε)) : Weave ε :=
  actions.foldl (act S) w

end Weave

end Cadence
