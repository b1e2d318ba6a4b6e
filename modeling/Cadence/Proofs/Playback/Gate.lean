import Cadence.Proofs.Playback.Record
import Cadence.Worker.Proxy

/-!
# The validation gate

A validator stands between the jobs of a session and its engine. A job whose input does not pass
ends with a snapshot that shows the objections, and the engine never learns of it.

* `Session.Gated`: a step of the engine goes on at an input that passes;
* `Session.run_congr`: what the engine would do at other inputs makes no difference to a run;
* `Session.begin_of_invalid`, `Session.begin_of_valid`: what becomes of a job at the gate;
* `Session.outside_act`: between two jobs nothing is done with the engine;
* **`Session.validation_gate`**: only inputs that pass reach the engine, a job that is rejected
  shows why, and an input that passes lets the next job step.
-/

namespace Cadence

variable {ε : Type}

/-- A new input is in the next snapshot. -/
def Stepper.TakesInput (S : Stepper ε) : Prop :=
  ∀ e input, (S.snapshot (S.setInput e input)).input = input

theorem Engine.stepper_takesInput : Engine.stepper.TakesInput := fun _ _ => rfl

theorem Proxy.stepper_takesInput {σ : Type} (ch : Channel σ) : (stepper ch).TakesInput :=
  fun _ _ => rfl

namespace Session

variable {S : Stepper ε} {s s' : Session ε} {job : Job ε} {rest : List (Job ε)} {e : ε}

/-! ## Steps of the engine -/

/-- While the engine is in a step, its input passes. -/
def Gated (S : Stepper ε) (s : Session ε) : Prop :=
  s.stepping = true → ∃ e, s.engine = some e ∧ s.objections (S.snapshot e).input = []

theorem Outside.gated (h : Outside s s') (gated : Gated S s) : Gated S s' := by
  intro busy
  obtain ⟨e, bound, valid⟩ := gated (h.stepping.symm.trans busy)
  exact ⟨e, h.engine.trans bound, (objections_congr h.validator _).trans valid⟩

theorem stepping_release (s : Session ε) : s.release.stepping = false := by
  obtain ⟨log, -, eq⟩ := s.exists_release_eq
  rw [eq]

theorem stepping_settle (s : Session ε) (job : Job ε) (snapshot : Snapshot) :
    (s.settle job snapshot).stepping = false := by
  rw [← s.stepping_release]
  unfold settle commit
  split
  · split
    · split <;> rfl
    · rfl
  · rfl

theorem gated_of_free (free : s.stepping = false) : Gated S s := by
  intro busy
  rw [free] at busy
  cases busy

theorem Move.gated (m : Move S s s') (h : Gated S s) : Gated S s' := by
  cases m with
  | paused => exact s.outside_pause.gated h
  | played interval limit => exact (s.outside_playLimited interval limit).gated h
  | unsubscribed name => exact (s.outside_unsubscribe name).gated h
  | started => exact (s.outside_start _).gated h
  | paced | subscribed | called | ordered | finished => exact h
  | begun head free steps engine valid => exact fun _ => ⟨_, engine, valid⟩
  | unbound | rejected | completed => exact gated_of_free (stepping_settle _ _ _)
  | ignored | replaced | bound | removed => exact gated_of_free (stepping_release _)

theorem act_congr {step' : ε → ε}
    (same : ∀ e, s.objections (S.snapshot e).input = [] → step' e = S.step e) (gated : Gated S s)
    (a : Action ε) : s.act { S with step := step' } a = s.act S a := by
  cases a with
  | complete =>
    show (s.takeLeave { S with step := step' }).through = (s.takeLeave S).through
    unfold takeLeave
    split
    · next job rest e _ bound =>
      by_cases busy : s.stepping = true
      · obtain ⟨e', bound', valid⟩ := gated busy
        obtain rfl := Option.some.inj (bound.symm.trans bound')
        simp only [busy, same e valid, if_true]
      · simp only [busy, Bool.false_eq_true, if_false]
    · rfl
  | play | playConfig | pause | setInterval | subscribe | unsubscribe | enter | fire | begin => rfl

/-- **What the engine would do at other inputs** makes no difference to a run. -/
theorem run_congr {step' : ε → ε}
    (same : ∀ e, s.objections (S.snapshot e).input = [] → step' e = S.step e) (gated : Gated S s)
    (actions : List (Action ε)) : s.run { S with step := step' } actions = s.run S actions := by
  induction actions generalizing s with
  | nil => rfl
  | cons a actions ih =>
    have moved := moves_act (S := S) s a
    have fixed : (s.act S a).validator = s.validator :=
      moved.keeps (P := fun t => t.validator = s.validator) (fun m h => m.validator_eq.trans h) rfl
    have next : Gated S (s.act S a) := moved.keeps Move.gated gated
    show (s.act { S with step := step' } a).run { S with step := step' } actions = _
    rw [act_congr same gated a]
    refine ih ?_ next
    intro e valid
    rw [objections_congr fixed] at valid
    exact same e valid

/-! ## Jobs at the gate -/

theorem begin_eq (S : Stepper ε) (head : s.queue = job :: rest) (free : s.stepping = false) :
    s.begin S = match job.kind with
      | .tick _ | .order .step => (s.beginStep S job).through
      | .order (.setInput input) => (s.runSetInput S job input).through
      | .order (.init e input) => (s.runInit S job e input).through
      | .order .destroy => (s.runDestroy S job).through := by
  unfold begin takeUp
  simp only [head, free]
  obtain ⟨id, kind⟩ := job
  rcases kind with g | (_ | _ | _ | _) <;> rfl

theorem begin_eq_beginStep (S : Stepper ε) (head : s.queue = job :: rest)
    (free : s.stepping = false) (steps : job.steps = true) :
    s.begin S = (s.beginStep S job).through := by
  rw [begin_eq S head free]
  obtain ⟨id, kind⟩ := job
  cases kind with
  | tick g => rfl
  | order order =>
    cases order with
    | step => rfl
    | setInput | init | destroy => simp [Job.steps] at steps

theorem begin_of_valid (head : s.queue = job :: rest) (free : s.stepping = false)
    (steps : job.steps = true) (bound : s.engine = some e)
    (valid : s.objections (S.snapshot e).input = []) :
    s.begin S = { s with stepping := true }.note (.stepping job e) := by
  rw [begin_eq_beginStep S head free steps]
  unfold beginStep
  simp only [bound, valid]
  rfl

theorem begin_of_invalid (head : s.queue = job :: rest) (free : s.stepping = false)
    (steps : job.steps = true) (bound : s.engine = some e)
    (invalid : s.objections (S.snapshot e).input ≠ []) :
    let shown := (S.snapshot e).withError
      (validationMessage (s.objections (S.snapshot e).input))
    s.begin S = ((s.leave job shown).notify shown).note (.finished job.id (some shown)) := by
  intro shown
  obtain ⟨first, others, found⟩ := List.exists_cons_of_ne_nil invalid
  rw [begin_eq_beginStep S head free steps, ← conclude_eq]
  unfold beginStep
  simp only [bound, found, shown, through_quit]

theorem settle_of_error {g : Nat} {snapshot : Snapshot} (tick : job.kind = .tick g)
    (current : s.isCurrent g = true) (error : snapshot.isError = true) :
    s.settle job snapshot = { s.release with playing := false, pending := none } := by
  have still : s.release.isCurrent g = true := by
    obtain ⟨log, -, eq⟩ := s.exists_release_eq
    rw [eq]
    exact current
  unfold settle commit
  simp only [tick, still, error, if_true, Bool.true_or]

theorem calm_release (calm : s.Calm) : s.release.Calm := by
  obtain ⟨log, -, eq⟩ := s.exists_release_eq
  rw [eq]
  exact calm

/-! ## Between two jobs -/

/-- **Between two jobs** nothing is done with the engine, whatever is asked for. -/
theorem outside_act (S : Stepper ε) (free : s.stepping = false) {a : Action ε} (no : a ≠ .begin) :
    Outside s (s.act S a) := by
  cases a with
  | play interval limit => exact s.outside_playLimited interval limit
  | playConfig config => exact s.outside_playLimited config.playbackInterval config.limit
  | pause => exact s.outside_pause
  | setInterval interval => exact s.outside_setInterval interval
  | subscribe name listener => exact s.outside_subscribe name listener
  | unsubscribe name => exact s.outside_unsubscribe name
  | enter order =>
    cases order with
    | step | setInput => exact s.outside_enqueue _
    | init | destroy => exact s.outside_pause.trans (outside_enqueue _ _)
  | fire handle => exact s.outside_fire handle
  | begin => exact absurd rfl no
  | complete =>
    have idle : s.complete S = s := by
      unfold complete takeLeave
      split
      · simp [free, Turn.through]
      · rfl
    show Outside s (s.complete S)
    rw [idle]
    exact .refl s

theorem outside_run (S : Stepper ε) (free : s.stepping = false) {actions : List (Action ε)}
    (no : ∀ a ∈ actions, a ≠ .begin) : Outside s (s.run S actions) := by
  induction actions generalizing s with
  | nil => exact .refl s
  | cons a actions ih =>
    obtain ⟨first, others⟩ := List.forall_mem_cons.mp no
    have acted := outside_act S free first
    exact acted.trans (ih (acted.stepping.trans free) others)

theorem begin_setInput {input : Record} (head : s.queue = job :: rest) (free : s.stepping = false)
    (kind : job.kind = .order (.setInput input)) (bound : s.engine = some e) :
    (s.begin S).engine = some (S.setInput e input) ∧ (s.begin S).stepping = false ∧
      (s.begin S).validator = s.validator := by
  have begun : s.begin S = (s.runSetInput S job input).through := by
    rw [begin_eq S head free, kind]
  have heard : ∃ t : Session ε, t.engine = some (S.setInput e input) ∧
      t.validator = s.validator ∧ (s.runSetInput S job input).through =
        ((t.release.announce (S.snapshot (S.setInput e input))).notify
          (S.snapshot (S.setInput e input))).note (.finished job.id none) := by
    refine ⟨{ s with engine := some (S.setInput e input) }, rfl, rfl, ?_⟩
    unfold runSetInput
    simp only [bound]
    rfl
  obtain ⟨t, engine, validator, eq⟩ := heard
  rw [begun, eq]
  have told := outside_notify (t.release.announce (S.snapshot (S.setInput e input)))
    (S.snapshot (S.setInput e input))
  have silent := t.silent_release
  refine ⟨?_, told.stepping.trans t.stepping_release, ?_⟩
  · exact told.engine.trans (silent.engine.trans engine)
  · exact told.validator.trans (silent.validator.trans validator)

/-! ## The gate -/

theorem begin_rejected (head : s.queue = job :: rest) (free : s.stepping = false)
    (steps : job.steps = true) (bound : s.engine = some e)
    (invalid : s.objections (S.snapshot e).input ≠ []) :
    let shown := (S.snapshot e).withError
      (validationMessage (s.objections (S.snapshot e).input))
    let t := s.begin S
    t.engine = some e ∧ t.stepping = false ∧ t.last = shown ∧
      t.broadcasts = s.broadcasts ++ [shown] ∧
      t.log.head? = some (.finished job.id (some shown)) := by
  intro shown t
  have settled := s.silent_settle job shown
  have told := outside_notify (s.leave job shown) shown
  have eq : t = _ := begin_of_invalid head free steps bound invalid
  rw [eq]
  refine ⟨?_, ?_, told.last, ?_, rfl⟩
  · exact told.engine.trans (settled.engine.trans bound)
  · exact told.stepping.trans (s.stepping_settle job shown)
  · exact told.broadcasts.trans (congrArg (· ++ [shown]) settled.broadcasts)

theorem begin_rejected_tick {g : Nat} (head : s.queue = job :: rest) (free : s.stepping = false)
    (tick : job.kind = .tick g) (current : s.isCurrent g = true) (bound : s.engine = some e)
    (invalid : s.objections (S.snapshot e).input ≠ []) :
    let shown := (S.snapshot e).withError
      (validationMessage (s.objections (S.snapshot e).input))
    (∃ t : Session ε, t.playing = false ∧ t.pending = none ∧
      s.begin S = (t.notify shown).note (.finished job.id (some shown))) ∧
    (s.Calm → (s.begin S).playing = false ∧ (s.begin S).pending = none) := by
  intro shown
  have eq := begin_of_invalid head free (by simp [Job.steps, tick]) bound invalid
  have stopped : s.settle job shown = _ := settle_of_error tick current rfl
  refine ⟨⟨s.leave job shown, ?_, ?_, eq⟩, fun calm => ?_⟩
  · show (s.settle job shown).playing = false
    rw [stopped]
  · show (s.settle job shown).pending = none
    rw [stopped]
  · have settled : (s.settle job shown).Calm := by
      rw [stopped]
      exact calm_release calm
    obtain ⟨us, names, next, log, heard, -⟩ :=
      exists_tell_eq settled shown job.id (some shown)
    have ended : s.begin S = { s.settle job shown with
        last := shown, subscribers := us, names, nextSubscriber := next, log } := eq.trans heard
    rw [ended, stopped]
    exact ⟨rfl, rfl⟩

theorem complete_eq (S : Stepper ε) (head : s.queue = job :: rest) (busy : s.stepping = true)
    (bound : s.engine = some e) :
    s.complete S = { s with engine := some (S.step e) }.conclude job (S.snapshot (S.step e)) := by
  simp [complete, takeLeave, head, bound, busy]

theorem engine_complete (head : s.queue = job :: rest) (busy : s.stepping = true)
    (bound : s.engine = some e) : (s.complete S).engine = some (S.step e) := by
  rw [complete_eq S head busy bound, conclude_eq]
  exact (outside_notify _ _).engine.trans (silent_settle _ job _).engine

theorem begin_passes (takes : S.TakesInput) {input : Record} (head : s.queue = job :: rest)
    (free : s.stepping = false) (kind : job.kind = .order (.setInput input))
    (bound : s.engine = some e) (valid : s.objections input = []) {later : List (Action ε)}
    (no : ∀ a ∈ later, a ≠ .begin) {next : Job ε} {others : List (Job ε)}
    (behind : ((s.begin S).run S later).queue = next :: others) (steps : next.steps = true) :
    let t := (s.begin S).run S later
    t.begin S = { t with stepping := true }.note (.stepping next (S.setInput e input)) := by
  intro t
  obtain ⟨engine, idle, validator⟩ := begin_setInput head free kind bound
  have between : Outside (s.begin S) t := outside_run S idle no
  refine begin_of_valid behind (between.stepping.trans idle) steps (between.engine.trans engine) ?_
  rw [objections_congr (between.validator.trans validator), takes e input]
  exact valid

theorem validator_run (S : Stepper ε) (s : Session ε) (actions : List (Action ε)) :
    (s.run S actions).validator = s.validator :=
  keeps_run (P := fun t => t.validator = s.validator) (fun m h => m.validator_eq.trans h) rfl
    actions

/-- **The validation gate.** Let a session have a validator.

* What the engine does with inputs that the validator objects to makes no difference to any run:
  such a step is never taken.
* A job that is to step the engine at such an input leaves the engine as it is. It broadcasts the
  engine's snapshot with a text of the objections once, and returns it. If it is a current tick,
  playback has ended with nothing pending before the listeners are called, so that only they could
  start it again.
* Once the input is changed to one that passes, the next job that is to step the engine does so. -/
theorem validation_gate (S : Stepper ε) (takes : S.TakesInput) (cancels : Bool)
    (check : Record → List FieldError) (actions : List (Action ε)) :
    let fresh : Session ε := { cancels, validator := some check }
    let s := fresh.run S actions
    let shown (e : ε) := (S.snapshot e).withError (validationMessage (check (S.snapshot e).input))
    (∀ step' : ε → ε, (∀ e, check (S.snapshot e).input = [] → step' e = S.step e) →
      fresh.run { S with step := step' } actions = s) ∧
    ∀ job rest e, s.queue = job :: rest → s.stepping = false → s.engine = some e →
      (job.steps = true → check (S.snapshot e).input ≠ [] →
        (s.begin S).engine = some e ∧ (s.begin S).stepping = false ∧
        (s.begin S).last = shown e ∧ (s.begin S).broadcasts = s.broadcasts ++ [shown e] ∧
        (s.begin S).log.head? = some (.finished job.id (some (shown e))) ∧
        ∀ g, job.kind = .tick g → s.isCurrent g = true →
          (∃ t : Session ε, t.playing = false ∧ t.pending = none ∧
            s.begin S = (t.notify (shown e)).note (.finished job.id (some (shown e)))) ∧
          (s.Calm → (s.begin S).playing = false ∧ (s.begin S).pending = none)) ∧
      ∀ input, job.kind = .order (.setInput input) → check input = [] →
        ∀ later, (∀ a ∈ later, a ≠ .begin) →
          let t := (s.begin S).run S later
          ∀ next others, t.queue = next :: others → next.steps = true →
            t.begin S = { t with stepping := true }.note (.stepping next (S.setInput e input)) ∧
            ((t.begin S).complete S).engine = some (S.step (S.setInput e input)) := by
  intro fresh s shown
  have validator : s.validator = some check := validator_run S fresh actions
  have asked (input : Record) : s.objections input = check input := by
    unfold objections
    rw [validator]
  refine ⟨?_, ?_⟩
  · intro step' same
    exact run_congr same (gated_of_free rfl) actions
  · intro job rest e head free bound
    refine ⟨?_, ?_⟩
    · intro steps invalid
      have same : shown e = (S.snapshot e).withError
          (validationMessage (s.objections (S.snapshot e).input)) := by rw [asked]
      rw [← asked] at invalid
      rw [same]
      obtain ⟨engine, idle, last, broadcasts, log⟩ :=
        begin_rejected head free steps bound invalid
      refine ⟨engine, idle, last, broadcasts, log, ?_⟩
      intro g tick current
      exact begin_rejected_tick head free tick current bound invalid
    · intro input kind valid later no t next others behind steps
      rw [← asked] at valid
      have passes := begin_passes takes head free kind bound valid no behind steps
      refine ⟨passes, ?_⟩
      have eq : t.begin S = _ := passes
      rw [eq]
      refine engine_complete behind rfl ?_
      obtain ⟨engine, idle, -⟩ := begin_setInput (S := S) head free kind bound
      exact (outside_run S idle no).engine.trans engine

/-- A form that asks for a count. -/
def countForm : FormSchema := Dict.empty.insert "count" .integer

/-- An engine at an input without a count. -/
def uncounted : Engine := Engine.create default .empty .single .empty

/-- An engine is bound at an input without a count, and a tick comes to it. -/
def tickAtGate : List (Action Engine) :=
  [.enter (.init uncounted none), .begin, .play 100 none, .fire 1]

/-- An input with a count. -/
def counted : Record := Dict.empty.insert "count" (.nat 4)

/-- The tick is rejected, and the input is changed. -/
def countGiven : List (Action Engine) := tickAtGate ++ [.begin, .enter (.setInput counted)]

/-- The rejected tick stops playback, and with a count in the input a caller steps the engine. -/
theorem validation_gate_countGiven :
    let fresh : Session Engine := { validator := some countForm.check }
    let s := fresh.run Engine.stepper tickAtGate
    let t := ((fresh.run Engine.stepper countGiven).begin Engine.stepper).run Engine.stepper
      [.enter .step]
    ((s.begin Engine.stepper).playing = false ∧ (s.begin Engine.stepper).pending = none) ∧
      (s.begin Engine.stepper).engine = some uncounted ∧
      ((t.begin Engine.stepper).complete Engine.stepper).engine =
        some (uncounted.setInput counted).step := by
  intro fresh s t
  obtain ⟨engine, -, -, -, -, stops⟩ :=
    ((validation_gate Engine.stepper Engine.stepper_takesInput true countForm.check tickAtGate).2
      ⟨1, .tick 1⟩ [] uncounted rfl rfl rfl).1 rfl (by decide +kernel)
  have passes := ((validation_gate Engine.stepper Engine.stepper_takesInput true countForm.check
    countGiven).2 ⟨2, .order (.setInput counted)⟩ [] uncounted rfl rfl rfl).2 counted rfl
      (by decide +kernel) [.enter .step] (by simp) ⟨3, .order .step⟩ [] rfl rfl
  exact ⟨(stops 1 rfl rfl).2 nofun, engine, passes.2⟩

end Session

end Cadence
