import Cadence.Worker.Frame
import Cadence.Worker.Message

/-!
# Wires

What travels between a worker and those who call it is read back as it was written. How the bodies
of messages look in bytes is left open, apart from their length where a process is greeted.

* `Wire`: the written forms of commands and replies;
* `Wire.packed`: one wire, on which the parts of a message stand one after the other.
-/

namespace Cadence

/-- The written forms of commands and replies. The greeting of a process is short enough to be
read. -/
structure Wire where
  commands : Codec Command
  replies : Codec Reply
  ping_le : (commands.encode .ping).length ≤ Frame.maxLength
  pong_le : (replies.encode .pong).length ≤ Frame.maxLength

/-- Commands and replies as tags with their parts. -/
def Wire.packed : Wire where
  commands := Command.codec
  replies := Reply.codec
  ping_le := by decide +kernel
  pong_le := by decide +kernel

end Cadence
