/-!
# Receiving messages

While it plays, the main task of a command waits for messages, of which its listener sends one for
each snapshot. A message wakes it up to look whether playback goes on.

* `Receiver`: where the loop stands;
* `Receiver.step`: what it does next.
-/

namespace Cadence

/-- Where a receive loop stands: it has received so many messages and waits for the next one, or it
is woken by one and is going to look whether playback goes on, or it is left. -/
inductive Receiver
  | waiting (received : Nat)
  | woken (received : Nat)
  | left
deriving DecidableEq, Repr

namespace Receiver

/-- What a receive loop does next. Messages are step counts, in the order in which they were sent;
the channel is closed when nobody is left to send any. A loop that finds no message stays where it
is. -/
def step (sent : List Nat) (closed playing : Bool) : Receiver → Receiver
  | .waiting received =>
    match sent[received]? with
    | some _ => .woken (received + 1)
    | none => if closed then .left else .waiting received
  | .woken received => if playing then .waiting received else .left
  | .left => .left

end Receiver

end Cadence
