import Cadence.Proofs.Worker.Hosting
import Cadence.Proofs.Worker.Streams

/-!
# Serving commands

A worker that serves a stream, and a worker on a thread, do no more than answer commands one after
the other, up to the first shutdown.

* `Worker.handleAll`: the answers to commands, without a stream between;
* `Command.upToShutdown`: the commands that are answered at all;
* `Worker.serve_frames`: a service that reads whole frames;
* `WorkerThread.callAll`, `WorkerThread.callAll_alive`: the calls of a thread;
* **`Worker.serve_eq_handleAll`**: what a service and a thread answer.
-/

namespace Cadence

variable {wire : Wire} {source : ModuleCache.Source}

/-- The commands up to the first shutdown, which is among them. -/
def Command.upToShutdown : List Command → List Command
  | [] => []
  | c :: cs => if c = .shutdown then [c] else c :: upToShutdown cs

theorem Command.upToShutdown_shutdown (cs : List Command) :
    upToShutdown (.shutdown :: cs) = [.shutdown] := rfl

theorem Command.upToShutdown_cons {c : Command} (more : c ≠ .shutdown) (cs : List Command) :
    upToShutdown (c :: cs) = c :: upToShutdown cs := by
  rw [upToShutdown, if_neg more]

theorem Command.upToShutdown_of_not_mem {cs : List Command} (more : Command.shutdown ∉ cs) :
    upToShutdown cs = cs := by
  induction cs with
  | nil => rfl
  | cons c cs ih =>
    have ne : c ≠ .shutdown := fun eq => more (eq ▸ List.mem_cons_self)
    rw [upToShutdown_cons ne, ih fun mem => more (List.mem_cons_of_mem _ mem)]

namespace Worker

/-- Answer commands one after the other. -/
def handleAll (source : ModuleCache.Source) (w : Worker) : List Command → Worker × List Reply
  | [] => (w, [])
  | c :: cs =>
    let rest := handleAll source (w.handle source c).1 cs
    (rest.1, (w.handle source c).2 :: rest.2)

@[simp] theorem length_handleAll (w : Worker) (cs : List Command) :
    (w.handleAll source cs).2.length = cs.length := by
  induction cs generalizing w with
  | nil => rfl
  | cons c cs ih => exact congrArg (· + 1) (ih _)

/-! ## Streams of commands -/

theorem serve_shutdown (fits : Frame.Fits wire.commands .shutdown)
    (answerFits : Frame.Fits wire.replies .shuttingDown) (w : Worker) (rest : Bytes)
    (broken : Option String) :
    w.serve wire source ⟨Frame.framed wire.commands .shutdown ++ rest, broken⟩ =
      { worker := w, written := Frame.framed wire.replies .shuttingDown } := by
  have received := Frame.read_write (Frame.write_of_fits fits) fits rest broken
  have written : Frame.write wire.replies (w.handle source .shutdown).2 =
      .ok (Frame.framed wire.replies .shuttingDown) := Frame.write_of_fits answerFits
  rw [serve]
  split
  · next eq => cases received.symm.trans eq
  · next eq => cases received.symm.trans eq
  · next eq =>
    cases received.symm.trans eq
    dsimp only
    rw [written]
    rfl

theorem serve_fault {w : Worker} {s : ByteStream} {f : Fault}
    (failed : Frame.read wire.commands s = .error f) :
    w.serve wire source s = { worker := w, fault := some f } := by
  rw [serve]
  split
  · next eq => cases failed.symm.trans eq; rfl
  · next eq => cases failed.symm.trans eq
  · next eq => cases failed.symm.trans eq

/-- **A service that reads whole frames** answers them as the worker does. It goes on with the rest
of the stream unless it has been shut down. -/
theorem serve_frames {w : Worker} {cs : List Command}
    (sent : ∀ c ∈ cs, Frame.Fits wire.commands c)
    (returned : ∀ r ∈ (w.handleAll source (Command.upToShutdown cs)).2, Frame.Fits wire.replies r)
    (rest : Bytes) (broken : Option String) :
    let run := w.handleAll source (Command.upToShutdown cs)
    let answers := run.2.flatMap (Frame.framed wire.replies)
    let after := run.1.serve wire source ⟨rest, broken⟩
    w.serve wire source ⟨cs.flatMap (Frame.framed wire.commands) ++ rest, broken⟩ =
      if Command.shutdown ∈ cs then { worker := run.1, written := answers }
      else { after with written := answers ++ after.written } := by
  -- on the commands: one turn of the service answers the first of them
  induction cs generalizing w with
  | nil => rfl
  | cons c cs ih =>
    by_cases last : c = .shutdown
    · subst last
      rw [Command.upToShutdown_shutdown] at returned ⊢
      have answerFits := returned .shuttingDown List.mem_cons_self
      dsimp only
      rw [if_pos List.mem_cons_self, List.flatMap_cons, List.append_assoc,
        serve_shutdown (sent _ List.mem_cons_self) answerFits]
      simp [handleAll, handle]
    · rw [Command.upToShutdown_cons last] at returned ⊢
      have fits := sent c List.mem_cons_self
      have received : Frame.read wire.commands
          ⟨(c :: cs).flatMap (Frame.framed wire.commands) ++ rest, broken⟩ =
            .ok (some (c, ⟨cs.flatMap (Frame.framed wire.commands) ++ rest, broken⟩)) := by
        rw [List.flatMap_cons, List.append_assoc]
        exact Frame.read_write (Frame.write_of_fits fits) fits _ _
      have written := Frame.write_of_fits (returned _ List.mem_cons_self)
      have others := ih (fun d mem => sent d (List.mem_cons_of_mem _ mem))
        (fun r mem => returned r (List.mem_cons_of_mem _ mem))
      have same : (Command.shutdown ∈ c :: cs) ↔ Command.shutdown ∈ cs := by
        rw [List.mem_cons, or_iff_right fun eq => last eq.symm]
      dsimp only at others ⊢
      rw [serve_read received written last, others]
      simp only [same, handleAll, List.flatMap_cons]
      split
      · rfl
      · dsimp only
        rw [List.append_assoc]

end Worker

/-! ## Threads -/

namespace WorkerThread

variable {fatal : String → Nat → Bool}

/-- Call a thread with commands one after the other. -/
def callAll (source : ModuleCache.Source) (fatal : String → Nat → Bool) (t : WorkerThread) :
    List Command → WorkerThread × List (Except Fault Reply)
  | [] => (t, [])
  | c :: cs =>
    let rest := callAll source fatal (t.call source fatal c).1 cs
    (rest.1, (t.call source fatal c).2 :: rest.2)

/-- No command starts a transfer that brings the thread down. -/
def Calm (source : ModuleCache.Source) (fatal : String → Nat → Bool) (w : Worker) :
    List Command → Prop
  | [] => True
  | c :: cs =>
    (∀ u ∈ w.upcoming? c, fatal u.1 u.2 = false) ∧ Calm source fatal (w.handle source c).1 cs

theorem callAll_ended (w : Worker) (cs : List Command) :
    (⟨w, false⟩ : WorkerThread).callAll source fatal cs =
      (⟨w, false⟩, List.replicate cs.length (.error (.channel .threadExited))) := by
  induction cs with
  | nil => rfl
  | cons c cs ih =>
    have ended : (⟨w, false⟩ : WorkerThread).call source fatal c =
        (⟨w, false⟩, .error (.channel .threadExited)) := rfl
    unfold callAll
    rw [ended, ih]
    rfl

/-- **A thread answers as its worker does**, up to the first shutdown. -/
theorem callAll_alive {w : Worker} {cs : List Command}
    (calm : Calm source fatal w (Command.upToShutdown cs)) :
    let run := w.handleAll source (Command.upToShutdown cs)
    ({ worker := w } : WorkerThread).callAll source fatal cs =
      (⟨run.1, Command.shutdown ∉ cs⟩,
        run.2.map .ok ++
          List.replicate (cs.length - run.2.length) (.error (.channel .threadExited))) := by
  induction cs generalizing w with
  | nil => rfl
  | cons c cs ih =>
    by_cases last : c = .shutdown
    · subst last
      rw [Command.upToShutdown_shutdown] at calm ⊢
      unfold callAll
      rw [call_alive calm.1]
      simp [callAll_ended, Worker.handleAll, Worker.handle]
    · rw [Command.upToShutdown_cons last] at calm ⊢
      have others := ih calm.2
      have alive : decide (c ≠ .shutdown) = true := by simpa using last
      unfold callAll
      rw [call_alive calm.1, alive]
      dsimp only at others ⊢
      rw [others]
      simp [Worker.handleAll, Ne.symm last]

end WorkerThread

/-! ## All together -/

/-- **A service and a thread answer as the worker does.** Let no body be too long for a reader. Then
the frames of commands, served in a row, leave the worker and give the replies that the commands up
to the first shutdown leave and give, one reply for each; nothing is done after a shutdown. If there
is none and the stream breaks inside the body of a further command, all the commands before it are
carried out and answered first. A thread that is called with the commands gives the same replies,
and a fault for every later call. -/
theorem Worker.serve_eq_handleAll (wire : Wire) (source : ModuleCache.Source) (w : Worker)
    (cs : List Command) (sent : ∀ c ∈ cs, Frame.Fits wire.commands c)
    (returned : ∀ r ∈ (w.handleAll source (Command.upToShutdown cs)).2,
      Frame.Fits wire.replies r) :
    let run := w.handleAll source (Command.upToShutdown cs)
    run.2.length = (Command.upToShutdown cs).length ∧
    (∃ bytes, Frame.writeAll wire.commands cs = .ok bytes ∧
      (∃ answers, w.serve wire source ⟨bytes, none⟩ = ⟨run.1, answers, none⟩ ∧
        Frame.readAll wire.replies ⟨answers, none⟩ = (run.2, none)) ∧
      (Command.shutdown ∉ cs → ∀ c frame cut broken, Frame.Fits wire.commands c →
        Frame.write wire.commands c = .ok frame → 4 ≤ cut → cut < frame.length →
        ∃ answers, w.serve wire source ⟨bytes ++ frame.take cut, broken⟩ =
            ⟨run.1, answers, some (Frame.shortBody ⟨frame.take cut, broken⟩)⟩ ∧
          Frame.readAll wire.replies ⟨answers, none⟩ = (run.2, none))) ∧
    ∀ fatal, WorkerThread.Calm source fatal w (Command.upToShutdown cs) →
      ({ worker := w } : WorkerThread).callAll source fatal cs =
        (⟨run.1, Command.shutdown ∉ cs⟩,
          run.2.map .ok ++
            List.replicate (cs.length - run.2.length) (.error (.channel .threadExited))) := by
  intro run
  refine ⟨length_handleAll _ _, ⟨_, Frame.writeAll_of_fits sent,
    ⟨_, ?_, Frame.readAll_whole returned⟩,
    fun more c frame cut broken fits written head short => ?_⟩,
    fun fatal calm => WorkerThread.callAll_alive calm⟩
  · have served := serve_frames sent returned [] none
    dsimp only at served
    rw [List.append_nil, serve_nil, List.append_nil] at served
    rw [served]
    split <;> rfl
  · cases (Frame.write_of_fits fits).symm.trans written
    have served := serve_frames sent returned ((Frame.framed wire.commands c).take cut) broken
    dsimp only at served
    rw [if_neg more, serve_fault (Frame.read_take_framed fits head short broken),
      List.append_nil] at served
    exact ⟨_, served, Frame.readAll_whole returned⟩

/-! ## A run with a shutdown -/

/-- A module of one output, which is the number of fields of its input. -/
def sizeModule : Module where
  location := "m"
  resolve _ := some fun r => .ok (.nat r.entries.length)

/-- A step that comes too early, an initialisation, and another step. -/
def briefCommands : List Command :=
  [.step, .initWith "m" (Dict.ofList [("n", {})]) .single .empty, .step]

/-- Behind a shutdown a step is not carried out, and before a broken ping all commands are. -/
theorem Worker.serve_briefCommands :
    let source : ModuleCache.Source := fun _ _ => .ok sizeModule
    let run := ({} : Worker).handleAll source (briefCommands ++ [.shutdown])
    let broken := ({} : Worker).handleAll source briefCommands
    (∃ bytes answers,
      Frame.writeAll Command.codec (briefCommands ++ [.shutdown, .step]) = .ok bytes ∧
      ({} : Worker).serve .packed source ⟨bytes, none⟩ = ⟨run.1, answers, none⟩ ∧
      Frame.readAll Reply.codec ⟨answers, none⟩ = (run.2, none)) ∧
    ({} : WorkerThread).callAll source (fun _ _ => false) (briefCommands ++ [.shutdown, .step]) =
      (⟨run.1, false⟩, run.2.map .ok ++ [.error (.channel .threadExited)]) ∧
    ∃ bytes ping answers, Frame.writeAll Command.codec briefCommands = .ok bytes ∧
      Frame.write Command.codec .ping = .ok ping ∧
      ({} : Worker).serve .packed source ⟨bytes ++ ping.take 9, some "stream broke"⟩ =
        ⟨broken.1, answers, some (Frame.shortBody ⟨ping.take 9, some "stream broke"⟩)⟩ ∧
      Frame.readAll Reply.codec ⟨answers, none⟩ = (broken.2, none) := by
  intro source run broken
  have calm : WorkerThread.Calm source (fun _ _ => false) {} (briefCommands ++ [.shutdown]) :=
    ⟨fun _ _ => rfl, fun _ _ => rfl, fun _ _ => rfl, fun _ _ => rfl, trivial⟩
  obtain ⟨-, ⟨bytes, written, ⟨answers, served, read⟩, -⟩, called⟩ :=
    serve_eq_handleAll .packed source {} (briefCommands ++ [.shutdown, .step])
      (by decide +kernel) (by decide +kernel)
  obtain ⟨-, ⟨bytes', written', -, breaks⟩, -⟩ :=
    serve_eq_handleAll .packed source {} briefCommands
      (by decide +kernel) (by decide +kernel)
  have fits : Frame.Fits Command.codec .ping := by decide +kernel
  obtain ⟨answers', served', read'⟩ := breaks (by decide) .ping _ 9 (some "stream broke") fits
    (Frame.write_of_fits fits) (by decide) (by decide +kernel)
  exact ⟨⟨bytes, answers, written, served, read⟩, called _ calm,
    bytes', _, answers', written', Frame.write_of_fits fits, served', read'⟩

end Cadence
