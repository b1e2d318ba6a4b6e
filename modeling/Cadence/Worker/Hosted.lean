import Cadence.Worker.Proxy

/-!
# Engines here or in a worker

* `HostedEngine`: an engine in this process, or a proxy of one in a child process;
* `HostedEngine.stepper`: either of them can be stepped.
-/

namespace Cadence

/-- An engine in this process, or in a worker. -/
inductive HostedEngine
  | inProcess (engine : Engine)
  | inWorker (proxy : Proxy WorkerProcess)

namespace HostedEngine

/-- Do one thing with the engine, wherever it is. -/
def onEither (here : Engine → Engine) (there : Proxy WorkerProcess → Proxy WorkerProcess) :
    HostedEngine → HostedEngine
  | .inProcess e => .inProcess (here e)
  | .inWorker p => .inWorker (there p)

/-- The last snapshot. -/
def snapshot : HostedEngine → Snapshot
  | .inProcess e => e.snapshot
  | .inWorker p => p.snapshot

/-- The operations, with the wire to the worker and the modules that it can load. -/
def stepper (wire : Wire) (source : ModuleCache.Source) : Stepper HostedEngine :=
  let here := Engine.stepper
  let there := Proxy.stepper (WorkerProcess.channel wire source)
  { snapshot := snapshot
    setInput := fun e input => e.onEither (here.setInput · input) (there.setInput · input)
    setConfig := fun e config => e.onEither (here.setConfig · config) (there.setConfig · config)
    step := onEither here.step there.step
    shutdown := onEither here.shutdown there.shutdown }

end HostedEngine

end Cadence
