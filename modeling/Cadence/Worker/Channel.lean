import Cadence.Worker.Basic

/-!
# Channels to a worker

A channel carries a command to a worker and brings back its reply. A worker may run on a thread of
its own or in a child process.

* `Channel`: a way to call a worker and to tear it down;
* `WorkerThread`: a worker on a thread, which ends at a shutdown, or when a transfer brings it down;
* `WorkerProcess`: a child process spoken to in frames, which has to answer a ping before it is
  used.
-/

namespace Cadence

/-- What a call comes to. The caller itself may break down in it. -/
inductive CallResult
  | answered (result : Except Fault Reply)
  | collapsed

/-- A link to a worker whose state is `σ`. -/
structure Channel (σ : Type) where
  call : σ → Command → σ × CallResult
  terminate : σ → σ

/-! ## Threads -/

/-- A worker on a thread. -/
structure WorkerThread where
  worker : Worker := {}
  alive : Bool := true

namespace WorkerThread

/-- Call the worker. A transfer that is `fatal` brings the thread down without an answer. -/
def call (source : ModuleCache.Source) (fatal : String → Nat → Bool) (t : WorkerThread)
    (c : Command) : WorkerThread × Except Fault Reply :=
  if !t.alive then (t, .error (.channel .threadExited))
  else if (t.worker.upcoming? c).any fun u => fatal u.1 u.2 then
    ({ t with alive := false }, .error (.channel .threadExited))
  else
    let (w, reply) := t.worker.handle source c
    (⟨w, c ≠ .shutdown⟩, .ok reply)

/-- End the thread. -/
def terminate (t : WorkerThread) : WorkerThread := { t with alive := false }

/-- The channel to a worker on a thread. -/
def channel (source : ModuleCache.Source) (fatal : String → Nat → Bool) : Channel WorkerThread where
  call t c := let (t, r) := t.call source fatal c; (t, .answered r)
  terminate := terminate

end WorkerThread

/-! ## Processes -/

/-- What runs in a child process: a worker, a program that writes some bytes once it is spoken to
and exits, or nothing any more. -/
inductive Child
  | hosting (worker : Worker)
  | uttering (output : Bytes)
  | gone

/-- A child process, and what it has written that is not read yet. -/
structure WorkerProcess where
  child : Child
  unread : Bytes := []
  killed : Bool := false

namespace WorkerProcess

/-- The child reads a command frame and writes its answer. -/
def feed (wire : Wire) (source : ModuleCache.Source) (p : WorkerProcess) (c : Command)
    (frame : Bytes) : Except Fault WorkerProcess :=
  match p.child with
  | .gone => .error (.channel (.write "Broken pipe (os error 32)"))
  | .uttering output => .ok { p with child := .gone, unread := p.unread ++ output }
  | .hosting w =>
    let run := w.serve wire source ⟨frame, none⟩
    let ended := run.fault.isSome || c = .shutdown
    .ok { p with
      child := if ended then .gone else .hosting run.worker
      unread := p.unread ++ run.written }

/-- Read the next reply of the child. -/
def receive (wire : Wire) (p : WorkerProcess) : WorkerProcess × Except Fault Reply :=
  let stream : ByteStream := ⟨p.unread, none⟩
  let p := { p with unread := Frame.rest stream }
  match Frame.read wire.replies stream with
  | .error f => (p, .error f)
  | .ok none => (p, .error (.channel .exited))
  | .ok (some (r, _)) => (p, .ok r)

/-- Call the child. -/
def call (wire : Wire) (source : ModuleCache.Source) (p : WorkerProcess) (c : Command) :
    WorkerProcess × Except Fault Reply :=
  if p.killed then (p, .error (.channel .terminated))
  else
    match (Frame.write wire.commands c).bind (p.feed wire source c) with
    | .error f => (p, .error f)
    | .ok p => p.receive wire

/-- Ask the child to exit, and kill it. -/
def kill (p : WorkerProcess) : WorkerProcess := { p with child := .gone, killed := true }

/-- The child runs. -/
def isAlive (p : WorkerProcess) : Bool :=
  !p.killed && match p.child with
  | .gone => false
  | _ => true

/-- Where the worker program is: the named one if it is there, or else the first of the usual
places where there is one. -/
def locate (present : String → Bool) (named : Option String) (usual : List String) :
    Option String :=
  match named with
  | some path => if present path then some path else usual.find? present
  | none => usual.find? present

/-- Start a child and check that it answers a ping. -/
def spawn (wire : Wire) (source : ModuleCache.Source) (path : String)
    (launch : Except String Child) : Except Fault WorkerProcess :=
  match launch with
  | .error reason => .error (.channel (.spawn path reason))
  | .ok child =>
    match ({ child : WorkerProcess }).call wire source .ping with
    | (_, .error f) => .error f
    | (p, .ok .pong) => .ok p
    | (_, .ok other) => .error (.channel (.unexpectedReply other.shown))

/-- The channel to a child process. -/
def channel (wire : Wire) (source : ModuleCache.Source) : Channel WorkerProcess where
  call p c := let (p, r) := p.call wire source c; (p, .answered r)
  terminate := kill

end WorkerProcess

end Cadence
