import Cadence.Binary.Codec
import Cadence.Engine.Basic
import Cadence.Text.Quoted

/-!
# Messages of a worker

A worker is driven by commands and answers each of them with one reply. Records, specs,
configurations and snapshots travel as JSON texts inside the messages.

* `Command`, `Reply`: the messages;
* `Command.initWith`, `Command.setInputTo`, `Command.setConfigTo`, `Reply.ofSnapshot`: messages
  that carry values;
* `Reply.snapshot?`: the snapshot of a reply, or why there is none;
* `Command.codec`, `Reply.codec`: their bodies as bytes.
-/

namespace Cadence

/-- A command to a worker. -/
inductive Command
  | init (location : String) (spec config input : Bytes)
  | setInput (input : Bytes)
  | setConfig (config : Bytes)
  | step
  | ping
  | shutdown
deriving DecidableEq, Repr

/-- The answer to a command. -/
inductive Reply
  | snapshot (text : Bytes)
  | ack
  | error (message : String)
  | pong
  | shuttingDown
deriving DecidableEq, Repr

/-- The JSON text of a value as bytes. -/
def Json.payload (v : Json) : Bytes := Utf8.encode v.toText

namespace Command

/-- Load a module and bind a fresh engine to it. -/
def initWith (location : String) (spec : OutputSpec) (config : ExecutionConfig) (input : Record) :
    Command :=
  .init location spec.toJson.payload config.toJson.payload (Json.ofRecord input).payload

/-- Replace the input of the engine. -/
def setInputTo (input : Record) : Command := .setInput (Json.ofRecord input).payload

/-- Replace the configuration of the engine. -/
def setConfigTo (config : ExecutionConfig) : Command := .setConfig config.toJson.payload

/-- The tag of a command and its parts; a command without parts is padded to the same number. -/
def parts : Command → Nat × List Bytes
  | .init location spec config input => (0, [Utf8.encode location, spec, config, input])
  | .setInput input => (1, [input, [], [], []])
  | .setConfig config => (2, [config, [], [], []])
  | .step => (3, [[], [], [], []])
  | .ping => (4, [[], [], [], []])
  | .shutdown => (5, [[], [], [], []])

/-- The command of a tag and parts. -/
def ofParts? : Nat × List Bytes → Option Command
  | (0, [location, spec, config, input]) =>
    (Utf8.decode? location).map fun l => .init l spec config input
  | (1, input :: _) => some (.setInput input)
  | (2, config :: _) => some (.setConfig config)
  | (3, _) => some .step
  | (4, _) => some .ping
  | (5, _) => some .shutdown
  | _ => none

/-- The bytes of a command. -/
def encode (c : Command) : Bytes := packParts c.parts.1 c.parts.2

/-- The command of a body. -/
def decode (bs : Bytes) : Option Command := (unpackParts 4 bs).bind ofParts?

theorem ofParts?_parts (c : Command) : ofParts? c.parts = some c := by
  cases c <;> simp [parts, ofParts?, Utf8.decode?_encode]

theorem decode_encode (c : Command) (h : c.encode.length < frameLimit) :
    decode c.encode = some c := by
  have hn : c.parts.2.length = 4 := by cases c <;> rfl
  have ht : c.parts.1 < frameLimit := by cases c <;> simp [parts, frameLimit, Word.count32]
  rw [decode, encode, ← hn, unpackParts_packParts _ ht h]
  exact ofParts?_parts c

/-- The written form of commands. -/
def codec : Codec Command := ⟨encode, decode, decode_encode⟩

end Command

namespace Reply

/-- The reply that carries a snapshot. -/
def ofSnapshot (s : Snapshot) : Reply := .snapshot s.toJson.payload

/-- A reply for diagnostics. -/
def shown : Reply → String
  | .snapshot text =>
    let numbers := text.map fun b => toString b.toNat
    "Snapshot \x7b snapshot_json: [" ++ ", ".intercalate numbers ++ "] \x7d"
  | .ack => "Ack"
  | .error message => "Error \x7b message: " ++ Text.quoted message ++ " \x7d"
  | .pong => "Pong"
  | .shuttingDown => "ShuttingDown"

/-- Read a snapshot that travelled as text. -/
def readSnapshot (text : Bytes) : Except Fault Snapshot :=
  match Snapshot.decoder.run text with
  | some s => .ok s
  | none => .error (.serialization "malformed JSON")

/-- The snapshot of a reply; any other reply is a fault. -/
def snapshot? : Reply → Except Fault Snapshot
  | .snapshot text => readSnapshot text
  | .error message => .error (.channel (.reported message))
  | r => .error (.channel (.unexpectedReply r.shown))

/-- The tag of a reply and its part. -/
def parts : Reply → Nat × List Bytes
  | .snapshot text => (0, [text])
  | .ack => (1, [[]])
  | .error message => (2, [Utf8.encode message])
  | .pong => (3, [[]])
  | .shuttingDown => (4, [[]])

/-- The reply of a tag and a part. -/
def ofParts? : Nat × List Bytes → Option Reply
  | (0, text :: _) => some (.snapshot text)
  | (1, _) => some .ack
  | (2, message :: _) => (Utf8.decode? message).map .error
  | (3, _) => some .pong
  | (4, _) => some .shuttingDown
  | _ => none

/-- The bytes of a reply. -/
def encode (r : Reply) : Bytes := packParts r.parts.1 r.parts.2

/-- The reply of a body. -/
def decode (bs : Bytes) : Option Reply := (unpackParts 1 bs).bind ofParts?

theorem ofParts?_parts (r : Reply) : ofParts? r.parts = some r := by
  cases r <;> simp [parts, ofParts?, Utf8.decode?_encode]

theorem decode_encode (r : Reply) (h : r.encode.length < frameLimit) :
    decode r.encode = some r := by
  have hn : r.parts.2.length = 1 := by cases r <;> rfl
  have ht : r.parts.1 < frameLimit := by cases r <;> simp [parts, frameLimit, Word.count32]
  rw [decode, encode, ← hn, unpackParts_packParts _ ht h]
  exact ofParts?_parts r

/-- The written form of replies. -/
def codec : Codec Reply := ⟨encode, decode, decode_encode⟩

end Reply

end Cadence
