import Cadence.Module.Basic
import Cadence.Text.Unsigned
import Cadence.Word

/-!
# Native libraries

A native library answers a call with a status code and a buffer. The buffer of a successful call is
a JSON text; otherwise it is a message.

* `NativeStatus.ofCode`: the meaning of a status code;
* `NativeReply.outcome`: the value or fault of a reply;
* `NativeLibrary.module`: a library as a module;
* `NativeLibrary.openCopy`: a library from a payload;
* `counterLibrary`: a library that adds and counts, reading its input as text.
-/

namespace Cadence

/-- The outcome of a native call. -/
inductive NativeStatus
  | success | deserializationError | outputError | serializationError | panic
deriving DecidableEq, Repr

namespace NativeStatus

/-- The status of a code; an unknown code is an error of the output. -/
def ofCode (code : Int) : NativeStatus :=
  if code = 0 then .success
  else if code = -1 then .deserializationError
  else if code = -3 then .serializationError
  else if code = -4 then .panic
  else .outputError

/-- The code of a status. -/
def code : NativeStatus → Int
  | .success => 0
  | .deserializationError => -1
  | .outputError => -2
  | .serializationError => -3
  | .panic => -4

/-- The name of a status. -/
def name : NativeStatus → String
  | .success => "Success"
  | .deserializationError => "DeserializationError"
  | .outputError => "OutputError"
  | .serializationError => "SerializationError"
  | .panic => "Panic"

theorem ofCode_code (s : NativeStatus) : ofCode s.code = s := by cases s <;> decide

end NativeStatus

/-- What a native call leaves behind. -/
structure NativeReply where
  code : Int
  output : Bytes

/-- The value or the fault of a reply of the export `name`. -/
def NativeReply.outcome (r : NativeReply) (name : String) : Except CallFault Json :=
  match NativeStatus.ofCode r.code with
  | .success =>
    match Json.ofBytes? r.output with
    | some v => .ok v
    | none => .error (.failed (name ++ " returned invalid JSON: malformed JSON"))
  | .panic => .error (.failed (name ++ " panicked: " ++ Utf8.decodeLossy r.output))
  | status =>
    if r.output.isEmpty then .error (.failed (name ++ " failed with " ++ status.name))
    else .error (.failed (Utf8.decodeLossy r.output))

/-- The exported symbols of a library; a call takes the input's JSON text. -/
abbrev NativeLibrary := List (String × (String → NativeReply))

namespace NativeLibrary

/-- The symbol that an export name stands for: one NUL may end it, and none may stand inside. -/
def symbol? (name : String) : Option String :=
  let nul := Char.ofNat 0
  let cs := name.toList
  let cs := if cs.getLast? = some nul then cs.dropLast else cs
  if cs.contains nul then none else some (String.ofList cs)

/-- The function of an export. -/
def resolve (lib : NativeLibrary) (name : String) : Option OutputFn := do
  let f ← Entries.get? (← symbol? name) lib
  return fun input => (f (Json.ofRecord input).toText).outcome name

/-- The module of a library. -/
def module (lib : NativeLibrary) (location : String) : Module := ⟨location, lib.resolve⟩

/-- Open a payload from a copy in a directory, which lists its files. The copy of a payload that is
no library is removed again. -/
def openCopy (recognise : Bytes → Except String NativeLibrary) (directory : List String)
    (copy location : String) (payload : Bytes) : List String × Except LoadFault Module :=
  let directory := copy :: directory
  match recognise payload with
  | .ok lib => (directory, .ok (lib.module location))
  | .error reason => (directory.erase copy, .error (.eval location reason))

end NativeLibrary

namespace CounterLibrary

/-- Characters behind the first occurrence of a pattern. -/
def after (pattern : List Char) : List Char → Option (List Char)
  | [] => if pattern.isEmpty then some [] else none
  | c :: cs =>
    if pattern.isPrefixOf (c :: cs) then some ((c :: cs).drop pattern.length) else after pattern cs

/-- A decimal integer in the range of a signed word. -/
def readInt (cs : List Char) : Option Int :=
  match cs with
  | '-' :: ds =>
    if ds.isEmpty then none
    else (Text.readDigits Word.leastSigned 0 ds).toOption.map fun n => -(n : Int)
  | ds =>
    if ds.isEmpty then none
    else (Text.readDigits (Word.leastSigned - 1) 0 ds).toOption.map Int.ofNat

/-- The integer behind the first mention of a key. -/
def intField (json key : String) : Option Int := do
  let r ← after ('"' :: key.toList ++ ['"', ':']) json.toList
  readInt ((r.dropWhile Text.isBlank).takeWhile fun c => c = '-' || c.isDigit)

/-- A successful reply with an integer. -/
def number (n : Int) : NativeReply := ⟨0, Utf8.encode (toString (Word.wrapped n))⟩

/-- A reply that reports an error. -/
def refusal (message : String) : NativeReply := ⟨-2, Utf8.encode message⟩

end CounterLibrary

/-- A library that adds `a` and `b`, counts `count` up, and fails on request. It looks for its
fields in the text of the input. -/
def counterLibrary : NativeLibrary :=
  [("_sum", fun json =>
      match CounterLibrary.intField json "a", CounterLibrary.intField json "b" with
      | some a, some b => CounterLibrary.number (a + b)
      | _, _ => CounterLibrary.refusal "a and b must be integers"),
    ("_next", fun json =>
      match CounterLibrary.intField json "count" with
      | some n => CounterLibrary.number (n + 1)
      | none => CounterLibrary.refusal "count must be an integer"),
    ("_fail", fun _ => CounterLibrary.refusal "deliberate failure")]

end Cadence
