import Cadence.Worker.Channel

/-!
# Scripted channels

A scripted channel brings back the results of a script in turn, whatever the commands are, and
keeps an account of what happens to it.

* `ChannelEvent`, `Scripted`;
* `Scripted.channel`: the channel itself.
-/

namespace Cadence

/-- What happens to a channel. -/
inductive ChannelEvent
  | called (command : Command)
  | terminated
deriving DecidableEq, Repr

/-- The results to come and the events so far, in order. -/
structure Scripted where
  script : List CallResult
  log : List ChannelEvent := []

namespace Scripted

/-- The result of a call that the script does not provide for. -/
def exhausted : CallResult := .answered (.error (.channel (.reported "script exhausted")))

/-- Record a command and bring back the next result. -/
def call (s : Scripted) (c : Command) : Scripted × CallResult :=
  ({ script := s.script.tail, log := s.log ++ [.called c] }, s.script.head?.getD exhausted)

/-- Record the end. -/
def terminate (s : Scripted) : Scripted := { s with log := s.log ++ [.terminated] }

/-- The channel that follows the script. -/
def channel : Channel Scripted where
  call := call
  terminate := terminate

end Scripted

end Cadence
