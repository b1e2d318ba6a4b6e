import Cadence.Proofs.Worker.Frames
import Cadence.Worker.Proxy

/-!
# Channels to live workers

A channel to a live worker answers a command as the worker does, as long as the command and its
reply get through. A courier that carries out commands in order brings the worker to the state that
it would reach without the channel between them.

* `Link`: a channel with the worker that it leads to;
* `WorkerThread.link`, `WorkerProcess.link`: links to a thread, and to a child process;
* `Link.Passing`: commands that get through in order;
* **`Link.carryOut`**, **`Link.request`**: what a courier does over a link.
-/

namespace Cadence

variable {wire : Wire} {source : ModuleCache.Source}

/-! ## Calls -/

theorem WorkerThread.call_alive {fatal : String → Nat → Bool} {w : Worker} {c : Command}
    (calm : ∀ u ∈ w.upcoming? c, fatal u.1 u.2 = false) :
    ({ worker := w } : WorkerThread).call source fatal c =
      (⟨(w.handle source c).1, c ≠ .shutdown⟩, .ok (w.handle source c).2) := by
  have down : ¬ (w.upcoming? c).any (fun u => fatal u.1 u.2) = true := by
    rw [Option.any_eq_true]
    rintro ⟨u, mem, down⟩
    rw [calm u mem] at down
    cases down
  unfold call
  rw [if_neg (by simp), if_neg down]

theorem WorkerProcess.call_hosting {w : Worker} {c : Command}
    (sent : Frame.Carried wire.commands c)
    (returned : Frame.Carried wire.replies (w.handle source c).2) (more : c ≠ .shutdown) :
    ({ child := .hosting w } : WorkerProcess).call wire source c =
      ({ child := .hosting (w.handle source c).1 }, .ok (w.handle source c).2) := by
  obtain ⟨frame, written, received⟩ := sent
  obtain ⟨answer, replied, read⟩ := returned
  have fed : (Frame.write wire.commands c).bind
      (({ child := .hosting w } : WorkerProcess).feed wire source c) =
        .ok { child := .hosting (w.handle source c).1, unread := answer } := by
    rw [written]
    show ({ child := .hosting w } : WorkerProcess).feed wire source c frame = _
    unfold feed
    dsimp only
    rw [Worker.serve_alone received replied more]
    simp [more]
  unfold call
  rw [if_neg (by simp), fed]
  dsimp only
  unfold receive
  dsimp only
  rw [read, Frame.rest_of_read read]

/-! ## Links -/

/-- A channel to a worker. A command that passes is answered as the worker answers it. -/
structure Link (source : ModuleCache.Source) (σ : Type) where
  channel : Channel σ
  hosts : σ → Worker → Prop
  passes : Worker → Command → Prop
  exchange : ∀ {s w c}, hosts s w → passes w c → c ≠ .shutdown →
    ∃ s', channel.call s c = (s', .answered (.ok (w.handle source c).2)) ∧
      hosts s' (w.handle source c).1

/-- A command passes to a thread unless it starts a transfer that brings the thread down. -/
def WorkerThread.link (source : ModuleCache.Source) (fatal : String → Nat → Bool) :
    Link source WorkerThread where
  channel := WorkerThread.channel source fatal
  hosts t w := t = { worker := w }
  passes w c := ∀ u ∈ w.upcoming? c, fatal u.1 u.2 = false
  exchange := by
    intro t w c host passes more
    refine ⟨{ worker := (w.handle source c).1 }, ?_, rfl⟩
    unfold channel
    dsimp only
    rw [host, call_alive passes]
    simp [more]

/-- A command passes to a child process if it is carried in a frame, and so is its reply. -/
def WorkerProcess.link (wire : Wire) (source : ModuleCache.Source) : Link source WorkerProcess where
  channel := WorkerProcess.channel wire source
  hosts p w := p = { child := .hosting w }
  passes w c := Frame.Carried wire.commands c ∧ Frame.Carried wire.replies (w.handle source c).2
  exchange := by
    intro p w c host passes more
    refine ⟨{ child := .hosting (w.handle source c).1 }, ?_, rfl⟩
    unfold channel
    dsimp only
    rw [host, call_hosting passes.1 passes.2 more]

namespace Link

variable {σ : Type} (L : Link source σ)

/-- Commands that pass one after the other and take one worker to another. -/
inductive Passing : Worker → List Command → Worker → Prop
  | nil (w : Worker) : Passing w [] w
  | cons {w w' : Worker} {c : Command} {cs : List Command} (passes : L.passes w c)
      (more : c ≠ .shutdown) (rest : Passing (w.handle source c).1 cs w') : Passing w (c :: cs) w'

theorem Passing.snoc {L : Link source σ} {w w' : Worker} {c : Command} {cs : List Command}
    (h : L.Passing w cs w') (passes : L.passes w' c) (more : c ≠ .shutdown) :
    L.Passing w (cs ++ [c]) (w'.handle source c).1 := by
  induction h with
  | nil w => exact .cons passes more (.nil _)
  | cons first other _ ih => exact .cons first other (ih passes)

/-- **A courier takes the worker where the commands take it**, and the last result of all is the
reply to the last command. -/
theorem carryOut {s : σ} {w w' : Worker} {cs : List Command} {c : Command} (host : L.hosts s w)
    (passing : L.Passing w cs w') (passes : L.passes w' c) (more : c ≠ .shutdown) :
    ∃ s' rs, Courier.carryOut L.channel s (cs ++ [c]) = (s', false, rs) ∧
      L.hosts s' (w'.handle source c).1 ∧
      rs[cs.length]? = some (.answered (.ok (w'.handle source c).2)) := by
  -- on the commands that wait: each of them is one exchange before the last command is reached
  induction passing generalizing s with
  | nil w =>
    obtain ⟨s', called, host'⟩ := L.exchange host passes more
    refine ⟨s', [.answered (.ok (w.handle source c).2)], ?_, host', rfl⟩
    show Courier.carryOut L.channel s [c] = _
    unfold Courier.carryOut
    rw [called]
    dsimp only
    rw [if_neg more]
    rfl
  | @cons w w' d ds first other _ ih =>
    obtain ⟨s₁, called, host₁⟩ := L.exchange host first other
    obtain ⟨s', rs, carried, host', last⟩ := ih host₁ passes
    refine ⟨s', .answered (.ok (w.handle source d).2) :: rs, ?_, host', last⟩
    show Courier.carryOut L.channel s (d :: (ds ++ [c])) = _
    unfold Courier.carryOut
    rw [called]
    dsimp only
    rw [if_neg other, carried]

/-- **A request over a link is answered by the worker behind it**, after it has caught up with the
commands that had been waiting. -/
theorem request {k : Courier σ} {w w' : Worker} {c : Command} (running : k.stopped = false)
    (host : L.hosts k.channel w) (passing : L.Passing w k.inbox w') (passes : L.passes w' c)
    (more : c ≠ .shutdown) :
    ∃ s', k.request L.channel c =
        ({ channel := s' }, .ok (w'.handle source c).2) ∧
      L.hosts s' (w'.handle source c).1 := by
  obtain ⟨s', rs, carried, host', last⟩ := L.carryOut host passing passes more
  refine ⟨s', ?_, host'⟩
  unfold Courier.request Courier.post Courier.deliver
  rw [if_neg (by simp [running])]
  dsimp only
  rw [if_neg (by simp [running]), carried]
  dsimp only
  rw [last]

end Link

end Cadence
