import Cadence.Module.Cache
import Cadence.Worker.Wire

/-!
# Workers

A worker keeps a module cache and at most one engine, and answers commands one at a time. A command
that it cannot carry out leaves the engine as it was.

* `Worker.handle`: the answer to a command;
* `Worker.serve`: answer the framed commands of a stream, up to a shutdown or the end;
* `Worker.upcoming?`: the transfer that a command is about to start.
-/

namespace Cadence

/-- The state of a worker. -/
structure Worker where
  cache : ModuleCache := {}
  engine : Option Engine := none

instance : Inhabited Worker := ⟨{}⟩

namespace Worker

/-- Read a payload of a command. -/
def readPayload (decoder : Decoder α) (text : Bytes) : Except Fault α :=
  match decoder.run text with
  | some a => .ok a
  | none => .error (.serialization "malformed JSON")

/-- What an initialisation binds: the spec, the configuration and the input. -/
def readBinding (spec config input : Bytes) :
    Except Fault (OutputSpec × ExecutionConfig × Record) := do
  let spec ← readPayload OutputSpec.decoder spec
  let config ← readPayload ExecutionConfig.decoder config
  let input ← readPayload Decoder.record input
  return (spec, config, input)

/-- The reply that reports a fault. -/
def refusal (f : Fault) : Reply := .error f.message

/-- The reply to an engine command before there is an engine. -/
def notInitialized : Reply := .error "engine not initialized"

/-- Carry out a command on the engine, if there is one. -/
def onEngine (w : Worker) (f : Engine → Except Fault (Engine × Reply)) : Worker × Reply :=
  match w.engine with
  | none => (w, notInitialized)
  | some e =>
    match f e with
    | .error fault => (w, refusal fault)
    | .ok (e', reply) => ({ w with engine := some e' }, reply)

/-- The engine with the reply that shows it. -/
def shown (e : Engine) : Engine × Reply := (e, .ofSnapshot e.snapshot)

/-- Load a module and replace the engine by a fresh one. The payloads are read before the module
is loaded. -/
def bindFresh (w : Worker) (source : ModuleCache.Source) (location : String)
    (spec config input : Bytes) : Worker × Reply :=
  match readBinding spec config input with
  | .error fault => (w, refusal fault)
  | .ok (spec, config, input) =>
    match w.cache.load source location with
    | (cache, .error cause) => ({ w with cache }, refusal (.load cause))
    | (cache, .ok (_, m)) =>
      let (e, reply) := shown (Engine.create m spec config input)
      (⟨cache, some e⟩, reply)

/-- Answer a command. -/
def handle (source : ModuleCache.Source) (w : Worker) : Command → Worker × Reply
  | .init location spec config input => w.bindFresh source location spec config input
  | .setInput input => w.onEngine fun e =>
      (readPayload Decoder.record input).map fun r => shown (e.setInput r)
  | .setConfig config => w.onEngine fun e =>
      (readPayload ExecutionConfig.decoder config).map fun c => (e.setConfig c, .ack)
  | .step => w.onEngine fun e => .ok (shown e.step)
  | .ping => (w, .pong)
  | .shutdown => (w, .shuttingDown)

/-- The location of the transfer that a command is about to start, and the number of its earlier
transfers. -/
def upcoming? (w : Worker) : Command → Option (String × Nat)
  | .init location spec config input =>
    if (readBinding spec config input).isOk && !location.isEmpty && !w.cache.contains location then
      some (location, w.cache.transfers.countP (·.location = location))
    else none
  | _ => none

/-- What serving a stream leaves: the worker, the bytes written, and the fault that ended it. -/
structure Served where
  worker : Worker
  written : Bytes := []
  fault : Option Fault := none

/-- Answer framed commands. A shutdown is answered and ends the service, and so does the end of the
stream. -/
def serve (wire : Wire) (source : ModuleCache.Source) (w : Worker) (s : ByteStream) : Served :=
  match h : Frame.read wire.commands s with
  | .error f => { worker := w, fault := some f }
  | .ok none => { worker := w }
  | .ok (some (c, r)) =>
    have := Frame.length_lt_of_read h
    let (w', reply) := w.handle source c
    match Frame.write wire.replies reply with
    | .error f => { worker := w', fault := some f }
    | .ok frame =>
      if c = .shutdown then { worker := w', written := frame }
      else
        let rest := serve wire source w' r
        { rest with written := frame ++ rest.written }
termination_by s.bytes.length

end Worker

end Cadence
