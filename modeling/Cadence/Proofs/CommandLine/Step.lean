import Cadence.Proofs.CommandLine.Run

/-!
# Where steps are checked

Two commands take steps with a form at hand. The one that plays holds the form against the input of
every step. The one that steps does so once: it refuses to begin, or it takes its steps whatever the
form says of the inputs that they start from.

* `Setup.stepping`: the command line that steps;
* `Workbench.startingInputs`: the inputs that its steps start from;
* `Setup.ChecksEachStep`: no step starts from a refused input, and stepping stops where playing
  does;
* `Setup.Opens.stepping_of_refused`, `Setup.Opens.stepping_of_passes`: what stepping comes to;
* `Setup.Opens.exists_playing`: what playing comes to;
* **`Setup.step_checks_first`**: what is stepped, and when every step is checked.
-/

namespace Cadence

/-- What the form has against the input that `j` steps leave. -/
def Assembly.objections (g : Assembly) (j : Nat) : List FieldError :=
  Stepper.objections g.validator (Engine.step^[j] g.engine).input

/-- The inputs that the steps of the command start from. -/
def Workbench.startingInputs (w : Workbench) (count : Nat) : List Record :=
  match w.objections with
  | [] => w.stepper.startingInputs count w.engine
  | _ => []

/-- The command stops with the message of a validation, behind a number of lines. -/
structure Completion.StopsOn (c : Completion) (errors : List FieldError) (lines : Nat) : Prop where
  message : c.fault.map CommandFault.message = some (validationMessage errors)
  lines : c.printed.length = lines

theorem Completion.StopsOn.error {printed : List Json} {last : Snapshot}
    {errors : List FieldError} {lines : Nat} (stops : (ending printed last).StopsOn errors lines) :
    last.error = some (validationMessage errors) := by
  have message : (ending printed last).fault.map CommandFault.message = last.error :=
    (Option.map_map _ _ _).trans Option.map_id'
  exact message.symm.trans stops.message

namespace Setup

/-- The command line that steps. -/
def stepping (r : Setup) (count : Nat) : Arguments where
  config := r.config
  verbose := r.verbose
  task := .step r.engine count

/-- Every step of a command is checked: none starts from an input that the form has something
against; on the first such input the command stops with the message, behind a line for every step
before it; and it stops so where playing does, which prints two snapshots more. -/
structure ChecksEachStep (r : Setup) (g : Assembly) (n : Nat) : Prop where
  conform : ∀ w, Workbench.prepare r.machine r.settings r.engine = .ok w →
    ∀ input ∈ w.startingInputs n, Stepper.objections g.validator input = []
  stops : ∀ j < n, Engine.stepper.Unfailing j g.engine → (∀ i < j, g.objections i = []) →
    g.objections j ≠ [] → ((r.stepping n).execute r.machine).StopsOn (g.objections j) j
  alike : ∀ j errors, errors ≠ [] →
    (((r.stepping n).execute r.machine).StopsOn errors j ↔
      ((r.arguments (some n)).execute r.machine).StopsOn errors (j + 2))

variable {r : Setup} {g : Assembly} {n : Nat}

theorem Opens.execute_stepping (opens : r.Opens (some n) g) :
    (r.stepping n).execute r.machine =
      match Task.executeStep r.machine r.settings r.engine n with
      | .ok c => c
      | .error f => .failed f := by
  unfold Arguments.execute
  rw [show (r.stepping n).settings r.machine = .ok r.settings from opens.settings]
  rfl

theorem error_ne_of_conform {k : Nat} (tries : Engine.stepper.Tries g.validator g.engine n k)
    (good : ∀ j < n, Engine.stepper.Unfailing j g.engine → g.objections j = [])
    {errors : List FieldError} (faulty : errors ≠ []) {last : Snapshot}
    (isLast : (g.engine.snapshot :: (List.range k).map g.trial).getLast? = some last) :
    last.error ≠ some (validationMessage errors) := by
  cases k with
  | zero =>
    obtain rfl : g.engine.snapshot = last := Option.some.inj isLast
    nofun
  | succ k =>
    rw [List.range_succ, List.map_append, ← List.cons_append] at isLast
    obtain rfl : g.trial k = last := Option.some.inj (List.getLast?_concat.symm.trans isLast)
    have unfailing : Engine.stepper.Unfailing k g.engine :=
      Stepper.unfailing_of_good fun j lt => tries.good j (Nat.succ_lt_succ lt)
    have passes : Stepper.objections g.validator
        (Engine.stepper.snapshot (Engine.stepper.step^[k] g.engine)).input = [] :=
      good k tries.few unfailing
    have stepped : g.trial k = (Engine.step^[k + 1] g.engine).snapshot := by
      rw [Function.iterate_succ_apply']
      exact congrArg Prod.snd (Stepper.attempt_of_passes passes)
    rw [stepped]
    exact Engine.error_iterate_ne rfl faulty (k + 1)

section

variable (opens : r.Opens (some n) g)
  (travels : r.isIsolated = true →
    ({ g with form := none } : Assembly).Travels r.machine.wire r.engine.artifact n)

/-! ## The command that steps -/

include opens travels

theorem Opens.exists_stepped :
    ∃ w, Workbench.prepare r.machine r.settings r.engine = .ok w ∧
      w.objections = g.objections 0 ∧
      w.walk n = ((Engine.stepper.runIterations n g.engine).1,
        (Engine.stepper.runIterations n g.engine).2.snapshot) ∧
      w.stepper.startingInputs n w.engine = Engine.stepper.startingInputs n g.engine := by
  obtain ⟨w, opened, -, form, follows⟩ := opens.exists_bench_under travels
  obtain ⟨history, last, starts⟩ := follows.runIterations
  refine ⟨w, opened, ?_, Prod.ext history last, starts⟩
  have shown : (w.stepper.snapshot w.engine).input = g.engine.input :=
    congrArg Snapshot.input follows.snapshot_eq
  unfold Workbench.objections Assembly.objections Assembly.validator
  rw [form, shown]
  cases g.form <;> rfl

theorem Opens.forall_startingInputs_iff {P : Record → Prop} :
    (∀ w, Workbench.prepare r.machine r.settings r.engine = .ok w →
        ∀ input ∈ w.startingInputs n, P input) ↔
      (g.objections 0 = [] → ∀ input ∈ Engine.stepper.startingInputs n g.engine, P input) := by
  obtain ⟨w, opened, objections, -, starts⟩ := opens.exists_stepped travels
  constructor
  · intro all passes input mem
    refine all w opened input ?_
    unfold Workbench.startingInputs
    rw [objections, passes, starts]
    exact mem
  · intro all w' opened' input mem
    cases opened'.symm.trans opened
    unfold Workbench.startingInputs at mem
    rw [objections, starts] at mem
    split at mem
    · next passes => exact all passes input mem
    · cases mem

/-- **Stepping refuses to begin** on an input that the form has something against. -/
theorem Opens.stepping_of_refused (refused : g.objections 0 ≠ []) :
    (r.stepping n).execute r.machine = .failed (.fault (.validation (g.objections 0))) := by
  obtain ⟨w, opened, objections, -, -⟩ := opens.exists_stepped travels
  have carried : Task.executeStep r.machine r.settings r.engine n =
      .error (.fault (.validation (g.objections 0))) := by
    unfold Task.executeStep
    rw [opened]
    dsimp only [bind, Except.bind]
    rw [objections]
    split
    · next none => exact absurd none refused
    · rfl
  rw [opens.execute_stepping, carried]

/-- **Stepping takes its steps** once it has begun, and looks at no other input. -/
theorem Opens.stepping_of_passes (passes : g.objections 0 = []) :
    (r.stepping n).execute r.machine =
      .ending ((Engine.stepper.runIterations n g.engine).1.map IterationStep.toJson)
        (Engine.stepper.runIterations n g.engine).2.snapshot := by
  obtain ⟨w, opened, objections, walked, -⟩ := opens.exists_stepped travels
  have carried : Task.executeStep r.machine r.settings r.engine n =
      .ok (.ending ((Engine.stepper.runIterations n g.engine).1.map IterationStep.toJson)
        (Engine.stepper.runIterations n g.engine).2.snapshot) := by
    unfold Task.executeStep
    rw [opened]
    dsimp only [bind, Except.bind]
    rw [objections, passes, walked]
    rfl
  rw [opens.execute_stepping, carried]

/-! ## The command that plays -/

/-- **What playing up to a limit comes to.** -/
theorem Opens.exists_playing
    (limit : Workbench.tighter (some n) g.config.limit = some n) {k : Nat}
    (tries : Engine.stepper.Tries g.validator g.engine n k) :
    ∃ last, (g.engine.snapshot :: (List.range k).map g.trial).getLast? = some last ∧
      (r.arguments (some n)).execute r.machine =
        .ending ((g.engine.snapshot :: (List.range k).map g.trial).map Snapshot.toJson) last := by
  obtain ⟨w, opened, config, form, follows⟩ := opens.exists_bench fun away => (travels away).checked
  have plays := tries.playsOut Engine.stepper_sound rfl (.inl limit)
  have hosted := follows.playsOut plays (by simpa using tries.few)
  have bounded : ((List.range k).map g.trial).length ≤
      (Workbench.tighter (some n) g.config.limit).getD Word.count := by
    rw [limit]
    simpa using tries.few
  rw [← config] at hosted bounded
  have played := Stage.autoplay_spec w.stepper r.chosen.scheduler r.chosen.frameRate g.validator
    (w.interval r.chosen r.interval) _ w.engine hosted bounded
  generalize ended : Stage.autoplay _ _ _ _ _ _ = p at played
  obtain ⟨t, last⟩ := p
  obtain ⟨heard, isLast⟩ := played
  have told : t.heard = g.engine.snapshot :: (List.range k).map g.trial :=
    heard.trans (congrArg (· :: _) follows.snapshot_eq)
  have play : w.play r.chosen (some n) r.interval = (t.heard, last) := by
    unfold Workbench.play
    dsimp only
    rw [form, show g.form.map FormSchema.check = g.validator from rfl, ended]
  rw [← told]
  exact ⟨_, isLast, opens.execute_eq opened play⟩

/-! ## Every step checked -/

theorem Opens.checksEachStep_of_refused
    (limit : Workbench.tighter (some n) g.config.limit = some n) (refused : g.objections 0 ≠ [])
    (more : 0 < n) : r.ChecksEachStep g n := by
  have stepped := opens.stepping_of_refused travels refused
  obtain ⟨first, others, objections⟩ := List.exists_cons_of_ne_nil refused
  have trial : g.trial 0 = g.engine.snapshot.withError (validationMessage (g.objections 0)) := by
    have refused : Stepper.objections g.validator (Engine.stepper.snapshot g.engine).input =
        first :: others := objections
    rw [objections]
    exact congrArg Prod.snd (Stepper.attempt_of_refused refused)
  have tries : Engine.stepper.Tries g.validator g.engine n 1 := by
    refine ⟨more, fun j lt => absurd lt (by omega), .inr ⟨0, rfl, ?_⟩⟩
    show (g.trial 0).isError = true
    rw [trial]
    rfl
  obtain ⟨last, isLast, played⟩ := opens.exists_playing travels limit tries
  obtain rfl : g.trial 0 = last := Option.some.inj isLast
  refine ⟨(opens.forall_startingInputs_iff travels).mpr fun passes => absurd passes refused, ?_, ?_⟩
  · intro j lt _ earlier _
    cases j with
    | zero =>
      rw [stepped]
      exact ⟨rfl, rfl⟩
    | succ j => exact absurd (earlier 0 (Nat.succ_pos j)) refused
  · intro j errors _
    rw [stepped, played, trial]
    constructor
    · rintro ⟨message, rfl⟩
      exact ⟨message, rfl⟩
    · rintro ⟨message, lines⟩
      exact ⟨message, Nat.add_right_cancel (m := 2) lines⟩

theorem Opens.checksEachStep_of_conform
    (limit : Workbench.tighter (some n) g.config.limit = some n) (passes : g.objections 0 = [])
    (conform : ∀ input ∈ Engine.stepper.startingInputs n g.engine,
      Stepper.objections g.validator input = []) : r.ChecksEachStep g n := by
  have stepped := opens.stepping_of_passes travels passes
  have good : ∀ j < n, Engine.stepper.Unfailing j g.engine → g.objections j = [] := by
    intro j lt unfailing
    exact conform _ ((Stepper.mem_startingInputs_iff Engine.stepper_sound).mpr
      ⟨j, lt, unfailing, rfl⟩)
  obtain ⟨k, tries⟩ := Engine.stepper.exists_tries g.validator g.engine n
  obtain ⟨last, isLast, played⟩ := opens.exists_playing travels limit tries
  refine ⟨(opens.forall_startingInputs_iff travels).mpr fun _ => conform, ?_, ?_⟩
  · intro j lt unfailing _ refused
    exact absurd (good j lt unfailing) refused
  · intro j errors faulty
    have walked : (Engine.stepper.runIterations n g.engine).2.error ≠
        some (validationMessage errors) := by
      rw [Stepper.engine_startingInputs Engine.stepper_sound]
      exact Engine.error_iterate_ne rfl faulty _
    rw [stepped, played]
    exact iff_of_false (fun stops => walked stops.error)
      fun stops => error_ne_of_conform tries good faulty isLast stops.error

/-- **Every step is checked** exactly if the first input is refused before a step is to be taken, or
no step starts from an input that the form has something against. -/
theorem Opens.checksEachStep_iff
    (limit : Workbench.tighter (some n) g.config.limit = some n) :
    r.ChecksEachStep g n ↔
      (g.objections 0 ≠ [] ∧ 0 < n) ∨
      (g.objections 0 = [] ∧ ∀ input ∈ Engine.stepper.startingInputs n g.engine,
        Stepper.objections g.validator input = []) := by
  constructor
  · intro checks
    by_cases passes : g.objections 0 = []
    · exact .inr ⟨passes, (opens.forall_startingInputs_iff travels).mp checks.conform passes⟩
    · refine .inl ⟨passes, Nat.pos_of_ne_zero ?_⟩
      rintro rfl
      -- there is no step to be refused, so playing prints one snapshot and ends well
      obtain ⟨last, -, played⟩ := opens.exists_playing travels limit
        ⟨Nat.le_refl 0, nofun, .inl rfl⟩
      have stepped := opens.stepping_of_refused travels passes
      have alike := checks.alike 0 _ passes
      rw [stepped, played] at alike
      have lines : 1 = 0 + 2 := (alike.mp ⟨rfl, rfl⟩).2
      cases lines
  · rintro (⟨refused, more⟩ | ⟨passes, conform⟩)
    · exact opens.checksEachStep_of_refused travels limit refused more
    · exact opens.checksEachStep_of_conform travels limit passes conform

end

/-- **Stepping checks the first input only.** If the form has something against it, then nothing is
printed and the command stops with the message. Otherwise the command takes the steps of a run, as
many as the run has starting inputs, and it prints their history and ends with the error of the last
one, whatever the form says of the later inputs. So every step is checked, as it is where the same
is played, exactly if the first input is refused before a step is to be taken, or no step starts
from an input that the form has something against. -/
theorem step_checks_first (g : Assembly) (n : Nat) (r : Setup) (opens : r.Opens (some n) g)
    (travels : r.isIsolated = true →
      ({ g with form := none } : Assembly).Travels r.machine.wire r.engine.artifact n) :
    let c := (r.stepping n).execute r.machine
    let run := Engine.stepper.runIterations n g.engine
    let starts := Engine.stepper.startingInputs n g.engine
    (g.objections 0 ≠ [] →
      c.printed = [] ∧ c.fault = some (.fault (.validation (g.objections 0)))) ∧
    (g.objections 0 = [] →
      c.printed = run.1.map (·.toJson.toText) ∧ c.fault = run.2.error.map .stopped ∧
        run.2 = Engine.step^[starts.length] g.engine) ∧
    (Workbench.tighter (some n) g.config.limit = some n →
      (r.ChecksEachStep g n ↔
        (g.objections 0 ≠ [] ∧ 0 < n) ∨
        (g.objections 0 = [] ∧
          ∀ input ∈ starts, Stepper.objections g.validator input = []))) := by
  intro c run starts
  refine ⟨fun refused => ?_, fun passes => ?_, opens.checksEachStep_iff travels⟩
  · have stepped : c = _ := opens.stepping_of_refused travels refused
    rw [stepped]
    exact ⟨rfl, rfl⟩
  · have stepped : c = _ := opens.stepping_of_passes travels passes
    rw [stepped]
    exact ⟨List.map_map, rfl, Stepper.engine_startingInputs Engine.stepper_sound n g.engine⟩

/-! ## A name that becomes a number -/

/-- Files that name the output `y`, feed it back to the field `name`, and want a text there. -/
def driftFiles : List (String × String) :=
  [("o", "\x7b\"y\":\x7b\x7d\x7d"),
    ("x", "\x7b\"type\":\"continuous\",\"continuous\":\x7b\"feedback_mappings\":" ++
      "[\x7b\"from_output\":\"y\",\"to_input\":\"name\"\x7d]\x7d\x7d"),
    ("i", "\x7b\"name\":\"x\"\x7d"),
    ("f", "\x7b\"name\":\x7b\"type\":\"string\"\x7d\x7d")]

/-- A machine with these files, where any other file can be loaded. -/
def driftMachine : Machine where
  files :=
    { read := fun path =>
        .ok (((driftFiles.find? fun f => Utf8.encode f.1 = path).map fun f =>
          Utf8.encode f.2).getD [])
      isPresent := fun _ => true
      launch := fun _ => .ok ()
      makeDirectory := fun _ => .ok () }
  environment _ := none
  recognise _ := .ok onesLibrary

/-- The output `y` is one, and it is the name from the second step on. -/
def drift : Assembly where
  module := onesLibrary.module "m"
  spec := Dict.ofList [("y", {})]
  config := .ofMappings [⟨"y", "name"⟩]
  input := Dict.ofList [("name", .str "x")]
  form := some (Dict.ofList [("name", .string)])

/-- The assembly, under its files. -/
def drifting : Setup where
  machine := driftMachine
  settings := {}
  engine :=
    { artifact := "m", outputs := "o", execution := some "x", input := some "i", form := some "f" }

theorem drifting_names (n : Nat) : drifting.Names (some n) drift where
  settings := rfl
  spec := by cbv
  config := by decide +kernel
  input := by cbv
  form := by cbv
  module := ⟨0, rfl⟩

theorem drifting_opens (n : Nat) : drifting.Opens (some n) drift :=
  (drifting_names n).opens (n := n) nofun nofun

theorem drift_passes : drift.objections 0 = [] := by decide +kernel

theorem drift_refused : drift.objections 1 ≠ [] := by decide +kernel

/-- A single step is checked, and its line is printed. -/
theorem step_checks_first_drifting :
    drifting.Opens (some 1) drift ∧
      ((drifting.stepping 1).execute drifting.machine).printed.length = 1 ∧
      ((drifting.stepping 1).execute drifting.machine).fault = none ∧
      drifting.ChecksEachStep drift 1 := by
  obtain ⟨-, stepped, checked⟩ := step_checks_first drift 1 drifting (drifting_opens 1) nofun
  obtain ⟨printed, fault, -⟩ := stepped drift_passes
  refine ⟨drifting_opens 1, ?_, fault, (checked rfl).mpr (.inr ⟨drift_passes, ?_⟩)⟩
  · rw [printed]
    rfl
  · intro input mem
    obtain rfl : input = drift.input := List.mem_singleton.mp mem
    exact drift_passes

/-- Two steps are taken and printed, and all is well, though the second one starts from a number in
the place of a text. Playing stops there with the message, and has printed the snapshot at the
start, the one of the step, and the one that tells of the input. -/
theorem second_step_unchecked :
    ((drifting.stepping 2).execute drifting.machine).printed.length = 2 ∧
      ((drifting.stepping 2).execute drifting.machine).code = 0 ∧
      drift.objections 1 ≠ [] ∧
      ((drifting.arguments (some 2)).execute drifting.machine).StopsOn (drift.objections 1) 3 ∧
      ¬ drifting.ChecksEachStep drift 2 := by
  have stepped := (drifting_opens 2).stepping_of_passes nofun drift_passes
  have tries : Engine.stepper.Tries drift.validator drift.engine 2 2 := by
    refine ⟨Nat.le_refl 2, fun j lt => ?_, .inl rfl⟩
    obtain rfl : j = 0 := by omega
    rfl
  obtain ⟨last, isLast, played⟩ := (drifting_opens 2).exists_playing nofun rfl tries
  obtain rfl : drift.trial 1 = last := Option.some.inj isLast
  refine ⟨?_, ?_, drift_refused, ?_, fun checks => ?_⟩
  · rw [stepped]
    rfl
  · rw [stepped]
    rfl
  · rw [played]
    exact ⟨rfl, rfl⟩
  · have unfailing : Engine.stepper.Unfailing 1 drift.engine := by
      intro i lt
      obtain rfl := Nat.lt_one_iff.mp lt
      rfl
    have earlier : ∀ i < 1, drift.objections i = [] := by
      intro i lt
      obtain rfl := Nat.lt_one_iff.mp lt
      exact drift_passes
    have stops := checks.stops 1 (Nat.lt_succ_self 1) unfailing earlier drift_refused
    rw [stepped] at stops
    exact absurd stops.lines (by decide)

end Setup

end Cadence
