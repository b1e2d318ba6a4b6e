import Cadence.Proofs.Worker.Mirror
import Cadence.Proofs.Worker.Serving

/-!
# Couriers

A proxy hands its commands to a courier, and the courier calls the channel with one of them at a
time. Some commands are waited for and some are not, and the channel may answer with anything. What
a step brings is the result of its own command nevertheless.

* `Dealing`, `Channel.recorded`: a channel with an account of what happens to it;
* `ProxyMove`, `Proxy.move`: what callers do with a proxy, and what its courier does in between;
* `Courier.exists_carryOut_eq`: the account of commands that are carried out;
* `Proxy.move_forget`: the account makes no difference;
* `Proxy.Open`, `Proxy.Closed`: the invariant, before and after the shutdown;
* `Proxy.Open.exists_turns_eq`: a turn takes the first command that waits, and enough turns all;
* **`Proxy.calls_aligned`**: the channel is called with the commands of a run, in their order.
-/

namespace Cadence

/-- What happens to a channel: a call with its result, or the end. -/
inductive Dealing
  | called (command : Command) (result : CallResult)
  | ended

/-- Calls that come back. -/
def Dealing.calls (ds : List (Command × Except Fault Reply)) : List Dealing :=
  ds.map fun d => .called d.1 (.answered d.2)

variable {σ : Type}

namespace Channel

/-- The channel with an account of what happens to it. -/
def recorded (ch : Channel σ) : Channel (σ × List Dealing) where
  call s c := (((ch.call s.1 c).1, s.2 ++ [.called c (ch.call s.1 c).2]), (ch.call s.1 c).2)
  terminate s := (ch.terminate s.1, s.2 ++ [.ended])

/-- Every call comes back, whatever it brings. -/
def Answers (ch : Channel σ) : Prop := ∀ s c, ∃ r, (ch.call s c).2 = .answered r

end Channel

/-- The courier carries out the first of the commands that wait. -/
def Courier.turn (ch : Channel σ) (k : Courier σ) : Courier σ :=
  match k.inbox with
  | [] => k
  | c :: cs =>
    let (s, stopped, _) := carryOut ch k.channel [c]
    { channel := s, inbox := cs, stopped }

/-- What callers do with a proxy, and what its courier does in between. -/
inductive ProxyMove
  | asks (call : EngineCall)
  | shutdown
  | turn

/-- The command that a move hands to the courier. -/
def ProxyMove.command? : ProxyMove → Option Command
  | .asks call => call.command?
  | .shutdown => some .shutdown
  | .turn => none

namespace Proxy

/-- One move. -/
def move (ch : Channel σ) (p : Proxy σ) : ProxyMove → Proxy σ
  | .asks call => (stepper ch).after p call
  | .shutdown => p.shutdown ch
  | .turn => { p with courier := p.courier.turn ch }

/-- What has happened to the channel of a proxy so far. -/
def account (p : Proxy (σ × List Dealing)) : List Dealing := p.courier.channel.2

end Proxy

/-- The courier of a channel without an account. -/
def Courier.forget (k : Courier (σ × List Dealing)) : Courier σ :=
  { k with channel := k.channel.1 }

/-- The proxy over a channel without an account. -/
def Proxy.forget (p : Proxy (σ × List Dealing)) : Proxy σ := { p with courier := p.courier.forget }

/-! ## Carrying out commands -/

theorem Command.upToShutdown_append {cs : List Command} (last : Command.shutdown ∈ cs)
    (cs' : List Command) : upToShutdown (cs ++ cs') = upToShutdown cs := by
  induction cs with
  | nil => simp at last
  | cons c cs ih =>
    by_cases eq : c = .shutdown
    · subst eq
      rfl
    · have rest : Command.shutdown ∈ cs := by simpa [Ne.symm eq] using last
      rw [List.cons_append, upToShutdown_cons eq, upToShutdown_cons eq, ih rest]

theorem Command.upToShutdown_concat {cs : List Command} (more : Command.shutdown ∉ cs) :
    upToShutdown (cs ++ [.shutdown]) = cs ++ [.shutdown] := by
  induction cs with
  | nil => rfl
  | cons c cs ih =>
    obtain ⟨ne, rest⟩ : Command.shutdown ≠ c ∧ Command.shutdown ∉ cs := by simpa using more
    rw [List.cons_append, upToShutdown_cons (Ne.symm ne), ih rest]

theorem Dealing.calls_append (ds ds' : List (Command × Except Fault Reply)) :
    calls (ds ++ ds') = calls ds ++ calls ds' := List.map_append

/-- **The account of commands that are carried out.** Each is called once, in order, up to the first
shutdown, and the channel ends behind a shutdown. -/
theorem Courier.exists_carryOut_eq {ch : Channel σ} (answers : ch.Answers) (s : σ)
    (account : List Dealing) (cs : List Command) :
    ∃ s' ds, carryOut ch.recorded (s, account) cs =
        ((s', account ++ Dealing.calls ds ++ if Command.shutdown ∈ cs then [.ended] else []),
          decide (Command.shutdown ∈ cs), ds.map fun d => .answered d.2) ∧
      ds.map Prod.fst = Command.upToShutdown cs := by
  induction cs generalizing s account with
  | nil => exact ⟨s, [], by simp [carryOut, Dealing.calls], rfl⟩
  | cons c cs ih =>
    obtain ⟨r, answered⟩ := answers s c
    have called : ch.recorded.call (s, account) c =
        (((ch.call s c).1, account ++ [.called c (.answered r)]), .answered r) := by
      simp [Channel.recorded, answered]
    unfold carryOut
    rw [called]
    dsimp only
    by_cases last : c = .shutdown
    · subst last
      refine ⟨ch.terminate (ch.call s .shutdown).1, [(.shutdown, r)], ?_, rfl⟩
      simp [Channel.recorded, Dealing.calls]
    · obtain ⟨s', ds, carried, same⟩ := ih (ch.call s c).1 (account ++ [.called c (.answered r)])
      refine ⟨s', (c, r) :: ds, ?_, ?_⟩
      · rw [if_neg last, carried]
        have more : Command.shutdown ∈ c :: cs ↔ Command.shutdown ∈ cs := by
          simp [Ne.symm last]
        simp [more, Dealing.calls]
      · rw [Command.upToShutdown_cons last, List.map_cons, same]

/-! ## Without the account -/

theorem Courier.carryOut_forget (ch : Channel σ) (s : σ × List Dealing) (cs : List Command) :
    carryOut ch s.1 cs = ((carryOut ch.recorded s cs).1.1, (carryOut ch.recorded s cs).2) := by
  induction cs generalizing s with
  | nil => rfl
  | cons c cs ih =>
    have called : ch.recorded.call s c =
        (((ch.call s.1 c).1, s.2 ++ [.called c (ch.call s.1 c).2]), (ch.call s.1 c).2) := rfl
    unfold carryOut
    rw [called]
    cases ch.call s.1 c with
    | mk s' r =>
      cases r with
      | collapsed => rfl
      | answered r =>
        dsimp only
        rw [ih (s', s.2 ++ [.called c (.answered r)])]
        split <;> rfl

theorem Courier.deliver_forget (ch : Channel σ) (k : Courier (σ × List Dealing)) :
    k.forget.deliver ch = ((k.deliver ch.recorded).1.forget, (k.deliver ch.recorded).2) := by
  have carried := carryOut_forget ch k.channel k.inbox
  unfold deliver forget
  dsimp only
  rw [carried]
  split <;> rfl

theorem Courier.post_forget (k : Courier (σ × List Dealing)) (c : Command) :
    k.forget.post c = (k.post c).forget := by
  unfold post forget
  split <;> rfl

theorem Courier.request_forget (ch : Channel σ) (k : Courier (σ × List Dealing)) (c : Command) :
    k.forget.request ch c = ((k.request ch.recorded c).1.forget, (k.request ch.recorded c).2) := by
  unfold request
  rw [post_forget, deliver_forget]
  dsimp only
  rw [show k.forget.inbox.length = k.inbox.length from rfl]
  rcases ((k.post c).deliver ch.recorded).2[k.inbox.length]? with _ | _ | _
  · rfl
  · rfl
  · rfl

theorem Courier.turn_forget (ch : Channel σ) (k : Courier (σ × List Dealing)) :
    k.forget.turn ch = (k.turn ch.recorded).forget := by
  unfold turn
  rw [show k.forget.inbox = k.inbox from rfl]
  cases k.inbox with
  | nil => rfl
  | cons c cs =>
    dsimp only
    rw [show k.forget.channel = k.channel.1 from rfl, carryOut_forget]
    rfl

namespace Proxy

theorem post_forget (p : Proxy (σ × List Dealing)) (c : Command) :
    p.forget.post c = (p.post c).forget := by
  have posted := p.courier.post_forget c
  unfold post forget
  dsimp only
  rw [posted]
  split <;> rfl

theorem request_forget (ch : Channel σ) (p : Proxy (σ × List Dealing)) (c : Command) :
    p.forget.request ch c = ((p.request ch.recorded c).1.forget, (p.request ch.recorded c).2) := by
  have requested := p.courier.request_forget ch c
  unfold request forget
  dsimp only
  rw [requested]
  split <;> rfl

theorem shutdown_forget (ch : Channel σ) (p : Proxy (σ × List Dealing)) :
    p.forget.shutdown ch = (p.shutdown ch.recorded).forget := by
  have delivered := (p.courier.post .shutdown).deliver_forget ch
  rw [← Courier.post_forget] at delivered
  unfold shutdown forget
  dsimp only
  rw [delivered]
  split <;> rfl

theorem move_forget (ch : Channel σ) (p : Proxy (σ × List Dealing)) (m : ProxyMove) :
    p.forget.move ch m = (p.move ch.recorded m).forget := by
  cases m with
  | asks call =>
    cases call with
    | step =>
      show p.forget.step ch = (p.step ch.recorded).forget
      unfold step
      rw [request_forget]
      rfl
    | setInput input =>
      show p.forget.setInput input = (p.setInput input).forget
      unfold setInput
      rw [post_forget]
      rfl
    | setConfig config => exact p.post_forget _
    | snapshot => rfl
  | shutdown => exact p.shutdown_forget ch
  | turn =>
    show ({ p.forget with courier := p.courier.forget.turn ch } : Proxy σ) = _
    rw [Courier.turn_forget]
    rfl

theorem run_forget (ch : Channel σ) (p : Proxy (σ × List Dealing)) (moves : List ProxyMove) :
    moves.foldl (move ch) p.forget = (moves.foldl (move ch.recorded) p).forget := by
  induction moves generalizing p with
  | nil => rfl
  | cons m moves ih => rw [List.foldl_cons, move_forget, ih, List.foldl_cons]

theorem start_forget (ch : Channel σ) (s : σ) (location : String) (spec : OutputSpec)
    (config : ExecutionConfig) (input : Record) :
    start ch s location spec config input =
      ((start ch.recorded (s, []) location spec config input).1.forget,
        (start ch.recorded (s, []) location spec config input).2) := by
  have requested := request_forget ch { courier := { channel := (s, []) }, lastSeen := { input } }
    (.initWith location spec config input)
  unfold start
  dsimp only
  rw [show ({ courier := { channel := s }, lastSeen := { input } } : Proxy σ) =
    forget { courier := { channel := (s, []) }, lastSeen := { input } } from rfl, requested]
  generalize request ch.recorded _ _ = asked
  obtain ⟨p, fault | reply⟩ := asked
  · exact congrArg (·, some fault) (p.shutdown_forget ch)
  · dsimp only
    cases reply.snapshot? with
    | error fault => exact congrArg (·, some fault) (p.shutdown_forget ch)
    | ok seen => rfl

end Proxy

/-! ## The account of a proxy -/

namespace Proxy

/-- The link is open: every command so far was called or waits. -/
structure Open (p : Proxy (σ × List Dealing)) (cs : List Command) : Prop where
  linked : p.linked = true
  running : p.courier.stopped = false
  more : Command.shutdown ∉ cs
  accounted : ∃ ds, p.account = Dealing.calls ds ∧ ds.map Prod.fst ++ p.courier.inbox = cs

/-- The link is closed: every command was called, up to the shutdown, and the channel has ended. -/
structure Closed (p : Proxy (σ × List Dealing)) (cs : List Command) : Prop where
  unlinked : p.linked = false
  emptied : p.courier.inbox = []
  last : Command.shutdown ∈ cs
  accounted : ∃ ds, p.account = Dealing.calls ds ++ [.ended] ∧
    ds.map Prod.fst = Command.upToShutdown cs

variable {ch : Channel σ} {p : Proxy (σ × List Dealing)} {cs : List Command}

theorem Open.post_eq (h : Open p cs) (c : Command) :
    p.post c = { p with courier := { p.courier with inbox := p.courier.inbox ++ [c] } } := by
  unfold post Courier.post
  rw [if_pos h.linked, if_neg (by simp [h.running])]

theorem Open.post (h : Open p cs) {c : Command} (more : c ≠ .shutdown) :
    Open (p.post c) (cs ++ [c]) := by
  obtain ⟨ds, account, commands⟩ := h.accounted
  rw [h.post_eq]
  refine ⟨h.linked, h.running, ?_, ds, account, ?_⟩
  · simp [h.more, Ne.symm more]
  · rw [← commands, List.append_assoc]

theorem Open.seen (h : Open p cs) (snapshot : Snapshot) :
    Open { p with lastSeen := snapshot } cs :=
  ⟨h.linked, h.running, h.more, h.accounted⟩

/-- **A turn** calls the channel with the first command that waits. -/
theorem Open.exists_turn_eq (answers : ch.Answers) (h : Open p cs) {c : Command}
    {waiting : List Command} (inbox : p.courier.inbox = c :: waiting) :
    ∃ r, (ch.call p.courier.channel.1 c).2 = .answered r ∧
      p.courier.turn ch.recorded =
        { channel := ((ch.call p.courier.channel.1 c).1,
            p.account ++ Dealing.calls [(c, r)]), inbox := waiting } := by
  obtain ⟨ds, -, commands⟩ := h.accounted
  have more : c ≠ .shutdown := fun eq => h.more (by simp [← commands, inbox, eq])
  obtain ⟨r, answered⟩ := answers p.courier.channel.1 c
  refine ⟨r, answered, ?_⟩
  simp [Courier.turn, inbox, Courier.carryOut, Channel.recorded, answered, more, account,
    Dealing.calls]

theorem turn_of_emptied (emptied : p.courier.inbox = []) : p.move ch.recorded .turn = p := by
  have idle : p.courier.turn ch.recorded = p.courier := by
    unfold Courier.turn
    rw [emptied]
  unfold Proxy.move
  dsimp only
  rw [idle]

theorem Open.turn (answers : ch.Answers) (h : Open p cs) :
    Open (p.move ch.recorded .turn) cs := by
  obtain ⟨ds, account, commands⟩ := h.accounted
  cases inbox : p.courier.inbox with
  | nil =>
    rw [turn_of_emptied inbox]
    exact h
  | cons c waiting =>
    obtain ⟨r, -, turned⟩ := h.exists_turn_eq answers inbox
    unfold Proxy.move
    dsimp only
    rw [turned]
    refine ⟨h.linked, rfl, h.more, ds ++ [(c, r)], ?_, ?_⟩
    · rw [Dealing.calls_append, ← account]
      rfl
    · rw [← commands, inbox, List.map_append, List.append_assoc]
      rfl

/-- **Enough turns** call the channel with all that waits. -/
theorem Open.exists_turns_eq (answers : ch.Answers) (h : Open p cs) {n : Nat}
    (enough : p.courier.inbox.length ≤ n) :
    let p' := (List.replicate n ProxyMove.turn).foldl (move ch.recorded) p
    p'.courier.inbox = [] ∧
      ∃ waiting, waiting.map Prod.fst = p.courier.inbox ∧
        p'.account = p.account ++ Dealing.calls waiting := by
  induction n generalizing p with
  | zero =>
    have emptied := List.eq_nil_of_length_eq_zero (Nat.le_zero.mp enough)
    exact ⟨emptied, [], emptied.symm, (List.append_nil _).symm⟩
  | succ n ih =>
    have next := h.turn answers
    rw [List.replicate_succ, List.foldl_cons]
    cases inbox : p.courier.inbox with
    | nil =>
      rw [turn_of_emptied inbox]
      obtain ⟨emptied, ds, commands, account⟩ := ih h (by simp [inbox])
      exact ⟨emptied, ds, commands.trans inbox, account⟩
    | cons c waiting =>
      obtain ⟨r, -, turned⟩ := h.exists_turn_eq answers inbox
      have left : (p.move ch.recorded .turn).courier.inbox = waiting := congrArg _ turned
      have called : (p.move ch.recorded .turn).account = p.account ++ Dealing.calls [(c, r)] :=
        congrArg (·.channel.2) turned
      rw [inbox] at enough
      obtain ⟨emptied, ds, commands, account⟩ := ih next (left ▸ Nat.le_of_succ_le_succ enough)
      refine ⟨emptied, (c, r) :: ds, ?_, ?_⟩
      · rw [List.map_cons, commands, left]
      · rw [account, called]
        exact List.append_assoc ..

theorem Open.exists_request_eq (answers : ch.Answers) (h : Open p cs) {c : Command}
    (more : c ≠ .shutdown) :
    ∃ s ds waiting result, p.account = Dealing.calls ds ∧
      ds.map Prod.fst ++ p.courier.inbox = cs ∧ waiting.map Prod.fst = p.courier.inbox ∧
      p.request ch.recorded c =
        ({ p with courier := { channel := (s, Dealing.calls (ds ++ waiting ++ [(c, result)])) } },
          result) := by
  obtain ⟨ds, account, commands⟩ := h.accounted
  obtain ⟨s, ds', carried, same⟩ := Courier.exists_carryOut_eq answers p.courier.channel.1
    p.courier.channel.2 (p.courier.inbox ++ [c])
  have open' : Command.shutdown ∉ p.courier.inbox ++ [c] := by
    have : Command.shutdown ∉ p.courier.inbox := fun mem => h.more (by simp [← commands, mem])
    simp [this, Ne.symm more]
  rw [Command.upToShutdown_of_not_mem open'] at same
  rw [if_neg open', decide_eq_false open', List.append_nil] at carried
  obtain ⟨waiting, last, rfl, inbox, single⟩ := List.map_eq_append_iff.mp same
  obtain ⟨⟨_, result⟩, rfl, rfl⟩ := List.map_eq_singleton_iff.mp single
  refine ⟨s, ds, waiting, result, account, commands, inbox, ?_⟩
  have length : p.courier.inbox.length = waiting.length := by
    rw [← inbox, List.length_map]
  unfold request Courier.request Courier.post Courier.deliver
  rw [if_pos h.linked, if_neg (by simp [h.running])]
  dsimp only
  rw [if_neg (by simp [h.running]), carried, length]
  simp [← account, Proxy.account, Dealing.calls_append]

theorem Open.exists_step_eq (answers : ch.Answers) (h : Open p cs) :
    ∃ s ds waiting result, p.account = Dealing.calls ds ∧
      ds.map Prod.fst ++ p.courier.inbox = cs ∧ waiting.map Prod.fst = p.courier.inbox ∧
      p.step ch.recorded =
        { p with
          courier := { channel := (s, Dealing.calls (ds ++ waiting ++ [(.step, result)])) }
          lastSeen := seenAfter p.lastSeen result } := by
  obtain ⟨s, ds, waiting, result, account, commands, inbox, requested⟩ :=
    h.exists_request_eq answers (c := .step) nofun
  refine ⟨s, ds, waiting, result, account, commands, inbox, ?_⟩
  unfold step
  rw [requested]

theorem Open.step (answers : ch.Answers) (h : Open p cs) :
    Open (p.step ch.recorded) (cs ++ [.step]) := by
  obtain ⟨s, ds, waiting, result, -, commands, inbox, stepped⟩ := h.exists_step_eq answers
  rw [stepped]
  refine ⟨h.linked, rfl, by simp [h.more], _, rfl, ?_⟩
  simp [inbox, ← commands]

theorem Open.shutdown (answers : ch.Answers) (h : Open p cs) :
    Closed (p.shutdown ch.recorded) (cs ++ [.shutdown]) := by
  obtain ⟨ds, account, commands⟩ := h.accounted
  obtain ⟨s, ds', carried, same⟩ := Courier.exists_carryOut_eq answers p.courier.channel.1
    p.courier.channel.2 (p.courier.inbox ++ [.shutdown])
  have more : Command.shutdown ∉ p.courier.inbox := fun mem => h.more (by simp [← commands, mem])
  have closed : p.shutdown ch.recorded = { p with
      courier := { channel := (s, Dealing.calls (ds ++ ds') ++ [.ended]), stopped := true }
      linked := false } := by
    unfold Proxy.shutdown Courier.post Courier.deliver
    rw [if_pos h.linked, if_neg (by simp [h.running])]
    dsimp only
    rw [if_neg (by simp [h.running]), carried]
    simp [← account, Proxy.account, Dealing.calls_append]
  rw [closed]
  refine ⟨rfl, rfl, by simp, ds ++ ds', rfl, ?_⟩
  rw [List.map_append, same, Command.upToShutdown_concat more, ← List.append_assoc, commands,
    Command.upToShutdown_concat h.more]

theorem Closed.post (h : Closed p cs) (c : Command) : Closed (p.post c) (cs ++ [c]) := by
  obtain ⟨ds, account, commands⟩ := h.accounted
  unfold Proxy.post
  rw [if_neg (by simp [h.unlinked])]
  refine ⟨h.unlinked, h.emptied, List.mem_append_left _ h.last, ds, account, ?_⟩
  rw [Command.upToShutdown_append h.last, commands]

theorem Closed.of_eq {p' : Proxy (σ × List Dealing)} (h : Closed p cs)
    (courier : p'.courier = p.courier) (linked : p'.linked = p.linked) : Closed p' cs := by
  obtain ⟨ds, account, commands⟩ := h.accounted
  refine ⟨linked.trans h.unlinked, ?_, h.last, ds, ?_, commands⟩
  · rw [courier, h.emptied]
  · rw [← account, Proxy.account, courier, Proxy.account]

theorem Closed.turn (h : Closed p cs) :
    Closed { p with courier := p.courier.turn ch.recorded } cs := by
  refine h.of_eq ?_ rfl
  unfold Courier.turn
  rw [h.emptied]

theorem Closed.shutdown (h : Closed p cs) :
    Closed (p.shutdown ch.recorded) (cs ++ [.shutdown]) := by
  obtain ⟨ds, account, commands⟩ := h.accounted
  unfold Proxy.shutdown
  rw [if_neg (by simp [h.unlinked])]
  refine ⟨h.unlinked, h.emptied, List.mem_append_left _ h.last, ds, account, ?_⟩
  rw [Command.upToShutdown_append h.last, commands]

theorem Closed.step_eq (h : Closed p cs) :
    p.step ch.recorded =
      { p with lastSeen := p.lastSeen.withError "IPC error: Worker has been shut down" } := by
  unfold step request
  rw [if_neg (by simp [h.unlinked])]
  rfl

theorem Closed.step (h : Closed p cs) : Closed (p.step ch.recorded) (cs ++ [.step]) := by
  obtain ⟨ds, account, commands⟩ := h.accounted
  rw [h.step_eq]
  refine ⟨h.unlinked, h.emptied, List.mem_append_left _ h.last, ds, account, ?_⟩
  rw [Command.upToShutdown_append h.last, commands]

/-! ## Runs -/

theorem accounted_move (answers : ch.Answers) (h : Open p cs ∨ Closed p cs) (m : ProxyMove) :
    Open (p.move ch.recorded m) (cs ++ m.command?.toList) ∨
      Closed (p.move ch.recorded m) (cs ++ m.command?.toList) := by
  cases m with
  | asks call =>
    cases call with
    | step => exact h.imp (·.step answers) (·.step)
    | setInput input =>
      exact h.imp (fun h => (h.post (c := .setInputTo input) nofun).seen _)
        (fun h => (h.post (.setInputTo input)).of_eq rfl rfl)
    | setConfig config =>
      exact h.imp (·.post (c := .setConfigTo config) nofun) (·.post (.setConfigTo config))
    | snapshot =>
      rw [show (ProxyMove.asks .snapshot).command?.toList = [] from rfl, List.append_nil]
      exact h
  | shutdown => exact .inr (h.elim (·.shutdown answers) (·.shutdown))
  | turn =>
    rw [show ProxyMove.turn.command?.toList = [] from rfl, List.append_nil]
    exact h.imp (·.turn answers) (·.turn)

theorem accounted_run (answers : ch.Answers) (h : Open p cs ∨ Closed p cs)
    (moves : List ProxyMove) :
    Open (moves.foldl (move ch.recorded) p) (cs ++ moves.filterMap ProxyMove.command?) ∨
      Closed (moves.foldl (move ch.recorded) p) (cs ++ moves.filterMap ProxyMove.command?) := by
  induction moves generalizing p cs with
  | nil => simpa using h
  | cons m moves ih =>
    have next := ih (accounted_move answers h m)
    have commands : (m :: moves).filterMap ProxyMove.command? =
        m.command?.toList ++ moves.filterMap ProxyMove.command? := by
      cases command : m.command? <;> simp [command]
    rw [commands, ← List.append_assoc]
    exact next

theorem open_fresh (s : σ) (seen : Snapshot) :
    Open { courier := { channel := (s, []) }, lastSeen := seen } [] :=
  ⟨rfl, rfl, List.not_mem_nil, [], rfl, rfl⟩

theorem accounted_start (answers : ch.Answers) (s : σ) (location : String) (spec : OutputSpec)
    (config : ExecutionConfig) (input : Record) :
    let init := Command.initWith location spec config input
    let begun := start ch.recorded (s, []) location spec config input
    match begun.2 with
    | some _ => Closed begun.1 [init, .shutdown]
    | none => Open begun.1 [init] := by
  intro init begun
  have fresh : Open { courier := { channel := (s, []) }, lastSeen := { input } } [] :=
    open_fresh s { input }
  obtain ⟨s', ds, waiting, result, -, commands, inbox, requested⟩ :=
    fresh.exists_request_eq answers (c := init) nofun
  have opened (seen : Snapshot) : Open
      { courier := { channel := (s', Dealing.calls (ds ++ waiting ++ [(init, result)])) }
        lastSeen := seen } [init] := by
    refine ⟨rfl, rfl, by simp [init, Command.initWith], _, rfl, ?_⟩
    simpa [inbox] using commands
  have closed := (opened { input }).shutdown answers
  unfold begun start
  dsimp only
  rw [requested]
  cases result with
  | error fault => exact closed
  | ok reply =>
    dsimp only
    cases read : reply.snapshot? with
    | error fault => exact closed
    | ok seen => exact opened seen

theorem open_start (answers : ch.Answers) {s : σ} {location : String} {spec : OutputSpec}
    {config : ExecutionConfig} {input : Record}
    (bound : (start ch.recorded (s, []) location spec config input).2 = none) :
    Open (start ch.recorded (s, []) location spec config input).1
      [.initWith location spec config input] := by
  have started := accounted_start answers s location spec config input
  dsimp only at started
  rw [bound] at started
  exact started

theorem seenAfter_cases (last : Snapshot) (result : Except Fault Reply) :
    match result >>= Reply.snapshot? with
    | .ok seen => seenAfter last result = seen
    | .error _ => ∃ message, seenAfter last result = last.withError message := by
  cases result with
  | error fault => exact ⟨_, rfl⟩
  | ok reply =>
    show match reply.snapshot? with
      | .ok seen => seenAfter last (.ok reply) = seen
      | .error _ => ∃ message, seenAfter last (.ok reply) = last.withError message
    cases reply with
    | snapshot text =>
      cases read : (Reply.snapshot text).snapshot? with
      | ok seen => simp only [seenAfter, read]
      | error fault => exact ⟨fault.message, by simp only [seenAfter, read]⟩
    | error message => exact ⟨message, rfl⟩
    | ack | pong | shuttingDown => exact ⟨_, rfl⟩

/-- **A channel is called with the commands of a run, in their order.** Let a channel answer every
call, with anything; that an account is kept of it makes no difference to the proxy. If the
initialisation does not bring a snapshot, the channel is shut down at once and ends. Otherwise,
whatever the turns of the courier, the calls so far and the commands that wait are the commands of
the run, up to the first shutdown. With a shutdown, nothing waits and the channel has ended behind
the last call, and a step is refused. Without one, it has not ended: a turn calls it with the first
command that waits, enough turns leave none, and a step shows the result of the call
that it adds behind all others: the snapshot in it, if there is one, or else what was shown before
with another error. -/
theorem calls_aligned (ch : Channel σ) (answers : ch.Answers) (s : σ) (location : String)
    (spec : OutputSpec) (config : ExecutionConfig) (input : Record) (moves : List ProxyMove) :
    let init := Command.initWith location spec config input
    let begun := start ch.recorded (s, []) location spec config input
    let commands := init :: moves.filterMap ProxyMove.command?
    let p := moves.foldl (move ch.recorded) begun.1
    let p' := p.step ch.recorded
    moves.foldl (move ch) (start ch s location spec config input).1 = p.forget ∧
    (begun.2 ≠ none →
      ∃ a b, begun.1.account = Dealing.calls [(init, a), (.shutdown, b)] ++ [.ended]) ∧
    (begun.2 = none →
      ∃ calls, calls.map Prod.fst ++ p.courier.inbox = Command.upToShutdown commands ∧
        (Command.shutdown ∈ commands →
          p.courier.inbox = [] ∧ p.account = Dealing.calls calls ++ [.ended] ∧
          p' = { p with lastSeen := p.lastSeen.withError "IPC error: Worker has been shut down" }) ∧
        (Command.shutdown ∉ commands →
          p.account = Dealing.calls calls ∧
          (∀ c waiting, p.courier.inbox = c :: waiting →
            ∃ r, (ch.call p.courier.channel.1 c).2 = .answered r ∧
              (p.move ch.recorded .turn).courier =
                { channel := ((ch.call p.courier.channel.1 c).1,
                    Dealing.calls (calls ++ [(c, r)])), inbox := waiting }) ∧
          (∀ n, p.courier.inbox.length ≤ n →
            let caughtUp := (List.replicate n .turn).foldl (move ch.recorded) p
            caughtUp.courier.inbox = [] ∧
              ∃ waiting, waiting.map Prod.fst = p.courier.inbox ∧
                caughtUp.account = Dealing.calls (calls ++ waiting)) ∧
          ∃ waiting result, waiting.map Prod.fst = p.courier.inbox ∧
            p'.account = Dealing.calls (calls ++ waiting ++ [(.step, result)]) ∧
            match result >>= Reply.snapshot? with
            | .ok seen => p'.lastSeen = seen
            | .error _ => ∃ message, p'.lastSeen = p.lastSeen.withError message)) := by
  intro init begun commands p p'
  refine ⟨?_, fun failed => ?_, fun bound => ?_⟩
  · rw [start_forget]
    exact run_forget ch begun.1 moves
  · have started := accounted_start answers s location spec config input
    dsimp only at started
    obtain ⟨fault, eq⟩ := Option.ne_none_iff_exists'.mp failed
    rw [show (start ch.recorded (s, []) location spec config input).2 = some fault from eq]
      at started
    obtain ⟨ds, account, called⟩ := started.accounted
    rw [Command.upToShutdown_cons (c := init) nofun, Command.upToShutdown_shutdown] at called
    obtain ⟨⟨_, a⟩, rest, rfl, rfl, behind⟩ := List.map_eq_cons_iff.mp called
    obtain ⟨⟨_, b⟩, rfl, rfl⟩ := List.map_eq_singleton_iff.mp behind
    exact ⟨a, b, account⟩
  · rcases accounted_run answers (.inl (open_start answers bound)) moves with opened | closed
    · obtain ⟨s', calls, waiting, result, account, called, inbox, stepped⟩ :=
        opened.exists_step_eq answers
      refine ⟨calls, ?_, fun last => absurd last opened.more, fun _ => ⟨account, ?_, ?_, ?_⟩⟩
      · exact called.trans (Command.upToShutdown_of_not_mem opened.more).symm
      · intro c waiting inbox
        obtain ⟨r, answered, turned⟩ := opened.exists_turn_eq answers inbox
        rw [account, ← Dealing.calls_append] at turned
        exact ⟨r, answered, turned⟩
      · intro n enough
        obtain ⟨emptied, ds, commands, caught⟩ := opened.exists_turns_eq answers enough
        rw [account, ← Dealing.calls_append] at caught
        exact ⟨emptied, ds, commands, caught⟩
      · refine ⟨waiting, result, inbox, congrArg Proxy.account stepped, ?_⟩
        rw [show p'.lastSeen = seenAfter p.lastSeen result from
          congrArg Proxy.lastSeen stepped]
        exact seenAfter_cases p.lastSeen result
    · obtain ⟨calls, account, called⟩ := closed.accounted
      refine ⟨calls, ?_, fun _ => ⟨closed.emptied, account, closed.step_eq⟩,
        fun more => absurd closed.last more⟩
      rw [show p.courier.inbox = [] from closed.emptied, List.append_nil]
      exact called

/-! ## A channel that answers out of turn -/

/-- It binds an engine, answers the next command with a snapshot, and then knows pongs only. -/
def outOfTurn : Channel Nat where
  call n _ := (n + 1, .answered (match n with
    | 0 => .ok (.ofSnapshot {})
    | 1 => .ok (.ofSnapshot { stepCount := 7 })
    | _ => .ok .pong))
  terminate := id

/-- A change of the input is called when the courier has caught up. A step shows the result of its
own call although this change was answered with a snapshot, and behind a shutdown nothing is called.
-/
theorem calls_aligned_outOfTurn :
    let begun := start outOfTurn.recorded (0, []) "m" .empty .single .empty
    let posted := [.asks (.setInput .empty)].foldl (move outOfTurn.recorded) begun.1
    let caughtUp := (List.replicate 2 .turn).foldl (move outOfTurn.recorded) posted
    let p := [.asks (.setInput .empty), .turn].foldl (move outOfTurn.recorded) begun.1
    let p' := p.step outOfTurn.recorded
    let p'' := [.asks .step, .shutdown, .asks .step].foldl (move outOfTurn.recorded) begun.1
    begun.2 = none ∧
    (∃ calls, caughtUp.courier.inbox = [] ∧ caughtUp.account = Dealing.calls calls ∧
      calls.map Prod.fst = [.initWith "m" .empty .single .empty, .setInputTo .empty]) ∧
    (∃ calls result, p'.account = Dealing.calls (calls ++ [(.step, result)]) ∧
      calls.map Prod.fst = [.initWith "m" .empty .single .empty, .setInputTo .empty] ∧
      match result >>= Reply.snapshot? with
      | .ok seen => p'.lastSeen = seen
      | .error _ => ∃ message, p'.lastSeen = p.lastSeen.withError message) ∧
    ∃ calls, p''.account = Dealing.calls calls ++ [.ended] ∧
      calls.map Prod.fst = [.initWith "m" .empty .single .empty, .step, .shutdown] := by
  intro begun posted caughtUp p p' p''
  have answers : outOfTurn.Answers := fun n _ => ⟨_, rfl⟩
  have bound : begun.2 = none := by
    unfold begun
    cbv
  obtain ⟨-, -, waits⟩ := calls_aligned outOfTurn answers 0 "m" .empty .single .empty
    [.asks (.setInput .empty)]
  obtain ⟨-, -, run⟩ := calls_aligned outOfTurn answers 0 "m" .empty .single .empty
    [.asks (.setInput .empty), .turn]
  obtain ⟨-, -, ended⟩ := calls_aligned outOfTurn answers 0 "m" .empty .single .empty
    [.asks .step, .shutdown, .asks .step]
  refine ⟨bound, ?_, ?_, ?_⟩
  · obtain ⟨calls, called, -, open'⟩ := waits bound
    have more : Command.shutdown ∉ Command.initWith "m" .empty .single .empty ::
        [.asks (.setInput .empty)].filterMap ProxyMove.command? := by
      simp [ProxyMove.command?, EngineCall.command?, Command.initWith, Command.setInputTo]
    rw [Command.upToShutdown_of_not_mem more] at called
    obtain ⟨-, -, catches, -⟩ := open' more
    have two := congrArg List.length called
    rw [List.length_append, show List.length (_ :: [_].filterMap _) = 2 from rfl] at two
    obtain ⟨emptied, waiting, inbox, account⟩ := catches 2 (by omega)
    refine ⟨calls ++ waiting, emptied, account, ?_⟩
    rw [List.map_append, inbox, called]
    rfl
  · obtain ⟨calls, called, -, open'⟩ := run bound
    have more : Command.shutdown ∉ Command.initWith "m" .empty .single .empty ::
        [.asks (.setInput .empty), .turn].filterMap ProxyMove.command? := by
      simp [ProxyMove.command?, EngineCall.command?, Command.initWith, Command.setInputTo]
    obtain ⟨-, -, -, waiting, result, inbox, account, seen⟩ := open' more
    refine ⟨calls ++ waiting, result, account, ?_, seen⟩
    rw [List.map_append, inbox, called, Command.upToShutdown_of_not_mem more]
    rfl
  · obtain ⟨calls, called, closed, -⟩ := ended bound
    obtain ⟨inbox, account, -⟩ := closed (by simp [ProxyMove.command?])
    refine ⟨calls, account, ?_⟩
    rw [inbox, List.append_nil] at called
    rw [called]
    rfl

end Proxy

end Cadence
