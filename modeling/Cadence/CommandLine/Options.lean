import Cadence.Schedule.Kind
import Cadence.Text.Unsigned
import Cadence.Word

/-!
# Options

A command takes options, with or without a value, and words. A long option may have its value behind
`=`; short ones may be joined, and the last of them may have its value right behind it. Behind `--`
there are only words. Arguments are read from the left, and the first thing that ends the reading
counts: a fault, or a request for the help or the version.

* `OptionSpec`, `OptionValue`: an option and the values that it takes;
* `UsageFault`, `Stop`: why the reading ends;
* `Given`: the options and the words that were given;
* `Given.scan`: read arguments.
-/

namespace Cadence

/-- The values that an option takes. -/
inductive OptionValue
  | text
  | path
  | count
  | scheduler
deriving DecidableEq, Repr

/-- The value is of the kind: a path is not empty, and a count is a 64-bit word. -/
def OptionValue.accepts (kind : OptionValue) (value : String) : Bool :=
  match kind with
  | .text => true
  | .path => value ≠ ""
  | .count => (Text.readUnsigned Word.largest value.toList).isOk
  | .scheduler => (SchedulerKind.ofText value).isOk

/-- An option. One without a value is a flag. -/
structure OptionSpec where
  long : String
  short : Option Char := none
  value : Option (String × OptionValue) := none
  help : String
deriving DecidableEq, Repr

/-- What is wrong with the arguments. -/
inductive UsageFault
  | unknownOption (argument : String)
  | missingValue (option : String)
  | unexpectedValue (option : String)
  | badValue (option value : String)
  | repeated (option : String)
  | unexpectedWord (word : String)
  | unknownCommand (name : String)
  | missingCommand
  | missing (name : String)
deriving DecidableEq, Repr

/-- The wording of a fault. -/
def UsageFault.message : UsageFault → String
  | .unknownOption a => "unexpected argument '" ++ a ++ "' found"
  | .missingValue o => "a value is required for '--" ++ o ++ "' but none was supplied"
  | .unexpectedValue o => "unexpected value for '--" ++ o ++ "' found; no more were expected"
  | .badValue o v => "invalid value '" ++ v ++ "' for '--" ++ o ++ "'"
  | .repeated o => "the argument '--" ++ o ++ "' cannot be used multiple times"
  | .unexpectedWord w => "unexpected argument '" ++ w ++ "' found"
  | .unknownCommand c => "unrecognized subcommand '" ++ c ++ "'"
  | .missingCommand => "a subcommand is required but one was not provided"
  | .missing n => "the following required argument was not provided: " ++ n

/-- Why the reading of arguments ends early. -/
inductive Stop
  | fault (cause : UsageFault)
  | help
  | version
deriving DecidableEq, Repr

/-- Options by their long names, with their values, and words. A flag has an empty value. -/
structure Given where
  options : List (String × String) := []
  words : List String := []
deriving DecidableEq, Repr

namespace Given

/-- The value of an option. -/
def value? (g : Given) (long : String) : Option String := g.options.lookup long

/-- The option is given. -/
def has (g : Given) (long : String) : Bool := (g.value? long).isSome

/-- Take in an option with its value. -/
def add (g : Given) (o : OptionSpec) (value : String) : Except Stop Given :=
  if o.long = "help" then .error .help
  else if o.long = "version" then .error .version
  else if g.has o.long then .error (.fault (.repeated o.long))
  else if o.value.all (·.2.accepts value) then
    .ok { g with options := g.options ++ [(o.long, value)] }
  else .error (.fault (.badValue o.long value))

/-- Take in a word, if there is room for one more. -/
def addWord (g : Given) (room : Nat) (w : String) : Except Stop Given :=
  if room ≤ g.words.length then .error (.fault (.unexpectedWord w))
  else .ok { g with words := g.words ++ [w] }

/-- Take in an option that may have a value written with it. One that lacks its value waits for
it. -/
def mention (g : Given) (o : OptionSpec) (value : Option String) :
    Except Stop (Given × Option OptionSpec) :=
  match o.value, value with
  | none, none => (g.add o "").map (·, none)
  | none, some _ => .error (.fault (.unexpectedValue o.long))
  | some _, some v => (g.add o v).map (·, none)
  | some _, none => .ok (g, some o)

/-- Read a long option behind its dashes. -/
def readLong (specs : List OptionSpec) (g : Given) (cs : List Char) :
    Except Stop (Given × Option OptionSpec) :=
  let name := String.ofList (cs.takeWhile (· ≠ '='))
  let value := match cs.dropWhile (· ≠ '=') with
    | [] => none
    | _ :: v => some (String.ofList v)
  match specs.find? (·.long = name) with
  | some o => g.mention o value
  | none => .error (.fault (.unknownOption ("--" ++ name)))

/-- Read joined short options behind their dash. -/
def readShort (specs : List OptionSpec) (g : Given) :
    List Char → Except Stop (Given × Option OptionSpec)
  | [] => .ok (g, none)
  | c :: cs =>
    match specs.find? (·.short = some c) with
    | none => .error (.fault (.unknownOption (String.ofList ['-', c])))
    | some o =>
      if o.value.isNone then do
        let (g, _) ← g.mention o none
        readShort specs g cs
      else
        match cs with
        | [] => g.mention o none
        | '=' :: v => g.mention o (some (String.ofList v))
        | v => g.mention o (some (String.ofList v))

/-- The argument is written like an option. -/
def looksLikeOption (a : String) : Bool := a.toList.head? = some '-' && a ≠ "-"

/-- Read arguments, of which an option may wait for its value. With room for no word at all the
reading leaves off at the first word. -/
def scan (specs : List OptionSpec) (room : Option Nat) (waiting : Option OptionSpec) (g : Given) :
    List String → Except Stop (Given × List String)
  | [] =>
    match waiting with
    | none => .ok (g, [])
    | some o => .error (.fault (.missingValue o.long))
  | a :: rest =>
    match waiting with
    | some o =>
      if looksLikeOption a then .error (.fault (.missingValue o.long))
      else do scan specs room none (← g.add o a) rest
    | none =>
      match a.toList, room with
      | ['-', '-'], _ => (rest.foldlM (fun g w => addWord g (room.getD 0) w) g).map (·, [])
      | '-' :: '-' :: cs, _ => do
        let (g, waiting) ← g.readLong specs cs
        scan specs room waiting g rest
      | '-' :: c :: cs, _ => do
        let (g, waiting) ← g.readShort specs (c :: cs)
        scan specs room waiting g rest
      | _, none => .ok (g, a :: rest)
      | _, some room => do scan specs room none (← g.addWord room a) rest

end Given

end Cadence
