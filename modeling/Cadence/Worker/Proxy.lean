import Cadence.Engine.Stepper
import Cadence.Worker.Channel

/-!
# Proxies

A proxy stands for an engine in a worker. It hands commands to a courier, which owns the channel and
carries them out in order, and keeps a copy of the last snapshot, so that looking at it needs no
call. Steps wait for their result; changes of the input and of the configuration are only posted.

* `Courier`: the channel with the commands that wait for it;
* `Courier.post`, `Courier.request`: hand in a command, and wait for the result of one;
* `Proxy`, `Proxy.start`, `Proxy.step`, `Proxy.shutdown`;
* `Proxy.stepper`: the operations of an engine.
-/

namespace Cadence

/-- A channel with the commands that wait for it. A courier that has stopped takes no more. -/
structure Courier (σ : Type) where
  channel : σ
  inbox : List Command := []
  stopped : Bool := false

namespace Courier

variable {σ : Type}

/-- Call the channel for each command in turn. A shutdown is the last call, and the channel is torn
down behind it; a call in which the courier breaks down is the last as well. -/
def carryOut (ch : Channel σ) (s : σ) : List Command → σ × Bool × List CallResult
  | [] => (s, false, [])
  | c :: cs =>
    match ch.call s c with
    | (s, .collapsed) => (s, true, [.collapsed])
    | (s, .answered r) =>
      if c = .shutdown then (ch.terminate s, true, [.answered r])
      else
        let (s, stopped, rs) := carryOut ch s cs
        (s, stopped, .answered r :: rs)

/-- Carry out all that waits. -/
def deliver (ch : Channel σ) (k : Courier σ) : Courier σ × List CallResult :=
  if k.stopped then ({ k with inbox := [] }, [])
  else
    let (s, stopped, rs) := carryOut ch k.channel k.inbox
    ({ channel := s, stopped }, rs)

/-- Hand in a command whose result nobody waits for. -/
def post (k : Courier σ) (c : Command) : Courier σ :=
  if k.stopped then k else { k with inbox := k.inbox ++ [c] }

/-- Hand in a command and wait for its own result. -/
def request (ch : Channel σ) (k : Courier σ) (c : Command) : Courier σ × Except Fault Reply :=
  let (k', rs) := (k.post c).deliver ch
  match rs[k.inbox.length]? with
  | some (.answered r) => (k', r)
  | _ => (k', .error (.channel .courierStopped))

end Courier

/-- An engine in a worker. -/
structure Proxy (σ : Type) where
  courier : Courier σ
  linked : Bool := true
  lastSeen : Snapshot

namespace Proxy

variable {σ : Type}

/-- What callers see. -/
def snapshot (p : Proxy σ) : Snapshot := p.lastSeen

/-- The link to the worker is open. -/
def isRunning (p : Proxy σ) : Bool := p.linked

/-- Hand a command to the courier, if the link is open. -/
def post (p : Proxy σ) (c : Command) : Proxy σ :=
  if p.linked then { p with courier := p.courier.post c } else p

/-- Hand a command to the courier and wait for its result. -/
def request (ch : Channel σ) (p : Proxy σ) (c : Command) : Proxy σ × Except Fault Reply :=
  if p.linked then
    let (courier, r) := p.courier.request ch c
    ({ p with courier }, r)
  else (p, .error (.channel .shutDown))

/-- Replace the input; the worker learns of it before the next step. -/
def setInput (p : Proxy σ) (input : Record) : Proxy σ :=
  { p.post (.setInputTo input) with lastSeen := ⟨p.lastSeen.stepCount, input, none, none⟩ }

/-- Replace the configuration; the worker learns of it before the next step. -/
def setConfig (p : Proxy σ) (config : ExecutionConfig) : Proxy σ := p.post (.setConfigTo config)

/-- What is seen after a step with the given result. A step without a snapshot changes the error
alone. -/
def seenAfter (last : Snapshot) : Except Fault Reply → Snapshot
  | .ok (.error message) => last.withError message
  | .ok r =>
    match r.snapshot? with
    | .ok s => s
    | .error f => last.withError f.message
  | .error f => last.withError f.message

/-- One step in the worker. -/
def step (ch : Channel σ) (p : Proxy σ) : Proxy σ :=
  let (p', r) := p.request ch .step
  { p' with lastSeen := seenAfter p.lastSeen r }

/-- Tell the worker to stop and tear the channel down. -/
def shutdown (ch : Channel σ) (p : Proxy σ) : Proxy σ :=
  if p.linked then
    { p with courier := ((p.courier.post .shutdown).deliver ch).1, linked := false }
  else p

/-- Bind an engine in the worker behind a channel. A proxy that cannot start is shut down. -/
def start (ch : Channel σ) (s : σ) (location : String) (spec : OutputSpec)
    (config : ExecutionConfig) (input : Record) : Proxy σ × Option Fault :=
  let p : Proxy σ := { courier := { channel := s }, lastSeen := { input } }
  match p.request ch (.initWith location spec config input) with
  | (p, .error f) => (p.shutdown ch, some f)
  | (p, .ok r) =>
    match r.snapshot? with
    | .error f => (p.shutdown ch, some f)
    | .ok s => ({ p with lastSeen := s }, none)

/-- The proxy in place of an engine. -/
def stepper (ch : Channel σ) : Stepper (Proxy σ) where
  snapshot := snapshot
  setInput := setInput
  setConfig := setConfig
  step := step ch
  shutdown := shutdown ch

end Proxy

end Cadence
