import Cadence.Form.Check

/-!
# Faults

What can go wrong, by cause, and the wording of each cause.

* `LoadFault`: a location that gives no module;
* `ChannelFault`: a worker that cannot be spoken to;
* `Fault`: all faults of the library.
-/

namespace Cadence

/-- Why a location gives no module. -/
inductive LoadFault
  | emptyLocation
  | transfer (status : Nat) (message : String)
  | io (location message : String)
  | eval (location message : String)
deriving DecidableEq, Repr

namespace LoadFault

/-- The wording of a load fault. -/
def message : LoadFault → String
  | .emptyLocation => "artifact location is empty"
  | .transfer status m => "HTTP " ++ toString status ++ ": " ++ m
  | .io location m => "failed to fetch " ++ location ++ ": " ++ m
  | .eval location m => "failed to evaluate module from " ++ location ++ ": " ++ m

/-- The status of a transfer that was answered. -/
def status : LoadFault → Option Nat
  | .transfer status _ => some status
  | _ => none

end LoadFault

/-- Why a worker cannot be spoken to, or answers out of turn. -/
inductive ChannelFault
  | frameTooLarge (size : Nat)
  | write (reason : String)
  | readLength (reason : String)
  | readBody (reason : String)
  | unexpectedReply (shown : String)
  | spawn (path reason : String)
  | noProgram
  | exited
  | terminated
  | threadExited
  | shutDown
  | courierStopped
  | reported (message : String)
deriving DecidableEq, Repr

/-- The wording of a channel fault. -/
def ChannelFault.message : ChannelFault → String
  | .frameTooLarge n => "Frame too large: " ++ toString n ++ " bytes"
  | .write reason => "Failed to write frame: " ++ reason
  | .readLength reason => "Failed to read frame length: " ++ reason
  | .readBody reason => "Failed to read frame body: " ++ reason
  | .unexpectedReply shown => "Unexpected response from worker: " ++ shown
  | .spawn path reason => "Failed to spawn worker process '" ++ path ++ "': " ++ reason
  | .noProgram => "Could not find tempo-worker."
  | .exited => "Worker exited unexpectedly"
  | .terminated => "Worker has been terminated"
  | .threadExited => "Worker thread has exited"
  | .shutDown => "Worker has been shut down"
  | .courierStopped => "Worker courier stopped"
  | .reported m => m

/-- What can go wrong. -/
inductive Fault
  | load (cause : LoadFault)
  | outputNotFound (output : String)
  | executionFailed (output cause : String)
  | validation (errors : List FieldError)
  | channel (cause : ChannelFault)
  | serialization (reason : String)
  | compile (reason : String)
  | config (reason : String)
  | io (reason : String)
deriving DecidableEq, Repr

/-- The wording of a fault. -/
def Fault.message : Fault → String
  | .load cause => cause.message
  | .outputNotFound output => "Output '" ++ output ++ "' not found in compiled module"
  | .executionFailed output cause => "Execution failed for '" ++ output ++ "': " ++ cause
  | .validation errors => validationMessage errors
  | .channel cause => "IPC error: " ++ cause.message
  | .serialization reason => "serialization error: " ++ reason
  | .compile reason => "compile error: " ++ reason
  | .config reason => "configuration error: " ++ reason
  | .io reason => "IO error: " ++ reason

end Cadence
