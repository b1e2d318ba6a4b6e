import Cadence.Binary.Codec
import Cadence.Binary.Little
import Cadence.Clock.Errand
import Cadence.Clock.Loop
import Cadence.CommandLine.Arguments
import Cadence.CommandLine.Execution
import Cadence.CommandLine.Machine
import Cadence.CommandLine.Options
import Cadence.CommandLine.Recital
import Cadence.Compiler.Client
import Cadence.Compiler.Result
import Cadence.Dict
import Cadence.Double.Basic
import Cadence.Double.Shortest
import Cadence.Engine.Basic
import Cadence.Engine.Snapshot
import Cadence.Engine.Stepper
import Cadence.Execution.Config
import Cadence.Fault
import Cadence.Feedback.Apply
import Cadence.Feedback.Path
import Cadence.Files.Access
import Cadence.Files.Tree
import Cadence.Form.Check
import Cadence.Form.Field
import Cadence.Http.Exchange
import Cadence.Http.Status
import Cadence.Json.Basic
import Cadence.Json.Decoder
import Cadence.Json.Document
import Cadence.Json.Printer
import Cadence.Main
import Cadence.Module.Basic
import Cadence.Module.Cache
import Cadence.Module.Catalogue
import Cadence.Module.Fetch
import Cadence.Module.Native
import Cadence.Output.Spec
import Cadence.Playback.Autoplay
import Cadence.Playback.Listener
import Cadence.Playback.Paced
import Cadence.Playback.Receiver
import Cadence.Playback.Session
import Cadence.Playback.Stage
import Cadence.Playback.Weave
import Cadence.Proofs.Clock.Reach
import Cadence.Proofs.Clock.Solo
import Cadence.Proofs.CommandLine.Alone
import Cadence.Proofs.CommandLine.Recital
import Cadence.Proofs.CommandLine.Run
import Cadence.Proofs.CommandLine.Step
import Cadence.Proofs.Engine.Attempt
import Cadence.Proofs.Engine.Calls
import Cadence.Proofs.Engine.Iterations
import Cadence.Proofs.Engine.Narrowing
import Cadence.Proofs.Engine.Outcome
import Cadence.Proofs.Engine.Resumption
import Cadence.Proofs.Engine.Run
import Cadence.Proofs.Engine.Starts
import Cadence.Proofs.Engine.Trials
import Cadence.Proofs.Feedback.Frame
import Cadence.Proofs.Feedback.Independence
import Cadence.Proofs.Feedback.Lens
import Cadence.Proofs.Form.Conformance
import Cadence.Proofs.Form.FirstFault
import Cadence.Proofs.Json.Reading
import Cadence.Proofs.Json.Recovery
import Cadence.Proofs.Json.RoundTrip
import Cadence.Proofs.Json.Shape
import Cadence.Proofs.Json.Sound
import Cadence.Proofs.Json.Tokens
import Cadence.Proofs.Json.Typed
import Cadence.Proofs.Module.AtOnce
import Cadence.Proofs.Module.Freshness
import Cadence.Proofs.Module.Offer
import Cadence.Proofs.Module.Sharing
import Cadence.Proofs.Module.Traffic
import Cadence.Proofs.Playback.Calm
import Cadence.Proofs.Playback.Clockwork
import Cadence.Proofs.Playback.Course
import Cadence.Proofs.Playback.Currency
import Cadence.Proofs.Playback.Delivery
import Cadence.Proofs.Playback.Gate
import Cadence.Proofs.Playback.Limit
import Cadence.Proofs.Playback.Move
import Cadence.Proofs.Playback.OneTick
import Cadence.Proofs.Playback.Overlap
import Cadence.Proofs.Playback.Playthrough
import Cadence.Proofs.Playback.Record
import Cadence.Proofs.Playback.Retiming
import Cadence.Proofs.Playback.SlowMotion
import Cadence.Proofs.Playback.Ticks
import Cadence.Proofs.Schedule.Apart
import Cadence.Proofs.Schedule.Arbiter
import Cadence.Proofs.Schedule.Boundary
import Cadence.Proofs.Schedule.Cancellation
import Cadence.Proofs.Schedule.OnLoop
import Cadence.Proofs.Schedule.Punctual
import Cadence.Proofs.Schedule.Service
import Cadence.Proofs.Schedule.Timers
import Cadence.Proofs.Schedule.TimersOnLoop
import Cadence.Proofs.Schedule.WakeUp
import Cadence.Proofs.Worker.Binding
import Cadence.Proofs.Worker.Courier
import Cadence.Proofs.Worker.Elsewhere
import Cadence.Proofs.Worker.Frames
import Cadence.Proofs.Worker.Hosting
import Cadence.Proofs.Worker.Limits
import Cadence.Proofs.Worker.Mirror
import Cadence.Proofs.Worker.Readable
import Cadence.Proofs.Worker.Rejection
import Cadence.Proofs.Worker.Serving
import Cadence.Proofs.Worker.Streams
import Cadence.Proofs.Worker.Upkeep
import Cadence.Schedule.Frame
import Cadence.Schedule.Kind
import Cadence.Schedule.Timer
import Cadence.Settings
import Cadence.Text.Blank
import Cadence.Text.Quoted
import Cadence.Text.Unsigned
import Cadence.Text.Utf8
import Cadence.Url.Address
import Cadence.Url.Basic
import Cadence.Url.Host
import Cadence.Url.Parser
import Cadence.Url.Percent
import Cadence.Url.Punycode
import Cadence.Word
import Cadence.Worker.Basic
import Cadence.Worker.Channel
import Cadence.Worker.Frame
import Cadence.Worker.Hosted
import Cadence.Worker.Message
import Cadence.Worker.Proxy
import Cadence.Worker.Scripted
import Cadence.Worker.Wire
