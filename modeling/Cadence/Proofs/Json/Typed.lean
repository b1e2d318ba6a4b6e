import Cadence.Compiler.Result
import Cadence.Execution.Config
import Cadence.Proofs.Json.Recovery
import Cadence.Settings

/-!
# Typed payloads are read back

Output specs, configurations, form schemas, results of the compiler and settings are recovered from
the values that they are written as. Of these only form schemas can be nested deep.

* `OutputSpec.recovers`, `ExecutionConfig.recovers`, `FormSchema.recovers`,
  `CompileResult.recovers`, `Settings.recovers`: each of the types;
* `ExecutionConfig.Fits`, `Settings.Fits`: numbers of the width they are read with;
* `FormField.Ordered`: a form whose objects list their fields by ascending name.
-/

namespace Cadence

open Decoder (recovers_string recovers_bool recovers_variant recovers_unsigned)

/-! ## Output specs -/

theorem OutputType.recovers (t : OutputType) : decoder.Recovers (.str t.name) t := by
  refine ⟨Json.printable_str _, fun {depth} _ => ?_⟩
  exact congrArg some (ofName_name t)

namespace OutputField

variable {f : OutputField} {e : String × Json}

/-- The fields that are written. -/
def fields (f : OutputField) : List (String × Json) :=
  (match f.type with
    | some t => [("type", .str t.name)]
    | none => []) ++ if f.axes.isEmpty then [] else [("axes", .arr (f.axes.map .str))]

theorem mem_fields (mem : e ∈ f.fields) :
    (∃ t : OutputType, e.2 = .str t.name) ∨ e.2 = .arr (f.axes.map .str) := by
  rcases List.mem_append.mp mem with type | axes
  · split at type
    · next t _ =>
      obtain rfl := List.mem_singleton.mp type
      exact .inl ⟨t, rfl⟩
    · cases type
  · split at axes
    · cases axes
    · obtain rfl := List.mem_singleton.mp axes
      exact .inr rfl

theorem get?_type : Entries.get? "type" f.fields = f.type.map fun t => .str t.name := by
  obtain ⟨type, axes⟩ := f
  cases type <;> cases axes <;> rfl

theorem get?_axes : Entries.get? "axes" f.fields =
    if f.axes.isEmpty then none else some (.arr (f.axes.map .str)) := by
  obtain ⟨type, axes⟩ := f
  cases type <;> cases axes <;> rfl

theorem keys_fields : List.Sublist (f.fields.map (·.1)) ["type", "axes"] := by
  obtain ⟨type, axes⟩ := f
  cases type <;> cases axes <;> simp [fields]

theorem recovers (f : OutputField) : decoder.Recovers f.toJson f := by
  have axesRead : Decoder.string.list.Recovers (.arr (f.axes.map .str)) f.axes :=
    Decoder.Recovers.list fun s _ => recovers_string s
  refine ⟨Json.printable_obj.mpr fun e mem => ?_, fun {depth} shallow => ?_⟩
  · rcases mem_fields mem with ⟨t, eq⟩ | eq
    · rw [eq]
      exact Json.printable_str _
    · rw [eq]
      exact axesRead.printable
  obtain _ | depth := depth
  · cases shallow
  have type : (Fields.written depth f.fields).withDefault "type" none OutputType.decoder.option =
      some f.type := Fields.withDefault_option get?_type (fun t _ => t.recovers) nofun shallow
  have axes : (Fields.written depth f.fields).withDefault "axes" [] Decoder.string.list =
      some f.axes := by
    refine Fields.withDefault_written (fun v found => ?_) (fun missing => ?_) shallow
    · rw [get?_axes] at found
      split at found
      · cases found
      · cases found
        exact axesRead
    · rw [get?_axes] at missing
      split at missing
      · next empty => exact List.isEmpty_iff.mp empty
      · cases missing
  have read : Fields.read ["type", "axes"] (depth + 1) (Document.ofJson f.toJson) =
      some (.written depth f.fields) := Fields.read_written keys_fields (by decide)
  unfold decoder
  rw [read]
  simp only [Option.bind_eq_bind, Option.bind_some, type, axes]
  rfl

theorem nesting_le (f : OutputField) : f.toJson.nesting ≤ 2 := by
  refine Json.nesting_obj_le_iff.mpr fun e mem => ?_
  rcases mem_fields mem with ⟨t, eq⟩ | eq
  · rw [eq]
    exact Nat.zero_le 1
  · rw [eq]
    refine Json.nesting_arr_le_iff.mpr fun v item => ?_
    obtain ⟨s, -, rfl⟩ := List.mem_map.mp item
    exact Nat.le_refl 0

end OutputField

namespace OutputSpec

/-- **Output specs** are recovered. -/
theorem recovers (spec : OutputSpec) : decoder.Recovers (toJson spec) spec :=
  Decoder.Recovers.dict fun e _ => e.2.recovers

theorem nesting_le (spec : OutputSpec) : (toJson spec).nesting ≤ 3 := by
  refine Json.nesting_obj_le_iff.mpr fun e mem => ?_
  obtain ⟨f, -, rfl⟩ := List.mem_map.mp mem
  exact f.2.nesting_le

end OutputSpec

/-! ## Configurations -/

theorem FeedbackMapping.recovers (m : FeedbackMapping) : decoder.Recovers m.toJson m := by
  refine ⟨Json.printable_obj.mpr ?_, fun {depth} shallow => ?_⟩
  · simp [Json.printable_str]
  obtain _ | depth := depth
  · cases shallow
  rfl

/-- The numbers are words. -/
structure ExecutionConfig.Fits (c : ExecutionConfig) : Prop where
  speed : ∀ n ∈ c.speed, n ≤ Word.largest
  limit : ∀ n ∈ c.limit, n ≤ Word.largest

namespace ContinuousConfig

variable {c : ContinuousConfig} {e : String × Json}

/-- The fields that are written. -/
def fields (c : ContinuousConfig) : List (String × Json) :=
  ("feedback_mappings", .arr (c.mappings.map (·.toJson))) ::
    (optionalField "playback_speed" c.speed ++ optionalField "max_iterations" c.limit ++
      [("auto_start", .bool c.autoStart)])

theorem mem_optionalField {name : String} {o : Option Nat} (mem : e ∈ optionalField name o) :
    ∃ n ∈ o, e.2 = .nat n := by
  cases o with
  | none => cases mem
  | some n =>
    obtain rfl := List.mem_singleton.mp mem
    exact ⟨n, rfl, rfl⟩

theorem mem_fields (mem : e ∈ c.fields) :
    e.2 = .arr (c.mappings.map (·.toJson)) ∨ (∃ n ∈ c.speed, e.2 = .nat n) ∨
      (∃ n ∈ c.limit, e.2 = .nat n) ∨ e.2 = .bool c.autoStart := by
  rcases List.mem_cons.mp mem with rfl | mem
  · exact .inl rfl
  · rcases List.mem_append.mp mem with mem | mem
    · rcases List.mem_append.mp mem with mem | mem
      · exact .inr (.inl (mem_optionalField mem))
      · exact .inr (.inr (.inl (mem_optionalField mem)))
    · obtain rfl := List.mem_singleton.mp mem
      exact .inr (.inr (.inr rfl))

theorem get?_fields (c : ContinuousConfig) :
    Entries.get? "feedback_mappings" c.fields = some (.arr (c.mappings.map (·.toJson))) ∧
    Entries.get? "playback_speed" c.fields = c.speed.map .nat ∧
    Entries.get? "max_iterations" c.fields = c.limit.map .nat ∧
    Entries.get? "auto_start" c.fields = some (.bool c.autoStart) := by
  obtain ⟨mappings, speed, limit, autoStart⟩ := c
  cases speed <;> cases limit <;> exact ⟨rfl, rfl, rfl, rfl⟩

theorem keys_fields : List.Sublist (c.fields.map (·.1))
    ["feedback_mappings", "playback_speed", "max_iterations", "auto_start"] := by
  obtain ⟨mappings, speed, limit, autoStart⟩ := c
  cases speed <;> cases limit <;> simp [fields, optionalField]

theorem recovers (h : (ExecutionConfig.continuous c).Fits) : decoder.Recovers c.toJson c := by
  have word {n : Nat} (small : n ≤ Word.largest) :
      (Decoder.unsigned Word.largest).Recovers (.nat n) n :=
    recovers_unsigned small (Nat.le_refl _)
  have mappingsRead : FeedbackMapping.decoder.list.Recovers (.arr (c.mappings.map (·.toJson)))
      c.mappings := Decoder.Recovers.list fun m _ => m.recovers
  refine ⟨Json.printable_obj.mpr fun e mem => ?_, fun {depth} shallow => ?_⟩
  · rcases mem_fields mem with eq | ⟨n, shown, eq⟩ | ⟨n, shown, eq⟩ | eq
    · rw [eq]
      exact mappingsRead.printable
    · rw [eq]
      exact Json.printable_nat (h.speed n shown)
    · rw [eq]
      exact Json.printable_nat (h.limit n shown)
    · rw [eq]
      exact Json.printable_bool _
  obtain _ | depth := depth
  · cases shallow
  obtain ⟨writtenMappings, writtenSpeed, writtenLimit, writtenStart⟩ := c.get?_fields
  have mappings := Fields.withDefault_given writtenMappings mappingsRead [] shallow
  have speed := Fields.withDefault_option writtenSpeed (fun n mem => word (h.speed n mem)) nofun
    shallow
  have limit := Fields.withDefault_option writtenLimit (fun n mem => word (h.limit n mem)) nofun
    shallow
  have start := Fields.withDefault_given writtenStart (recovers_bool _) false shallow
  have read : Fields.read ["feedback_mappings", "playback_speed", "max_iterations", "auto_start"]
      (depth + 1) (Document.ofJson c.toJson) = some (.written depth c.fields) :=
    Fields.read_written keys_fields (by decide)
  unfold decoder
  simp only [read, Option.bind_eq_bind, Option.bind_some, mappings, speed, limit, start]
  rfl

theorem nesting_le (c : ContinuousConfig) : c.toJson.nesting ≤ 3 := by
  refine Json.nesting_obj_le_iff.mpr fun e mem => ?_
  rcases mem_fields mem with eq | ⟨n, -, eq⟩ | ⟨n, -, eq⟩ | eq
  · rw [eq]
    refine Json.nesting_arr_le_iff.mpr fun v item => ?_
    obtain ⟨m, -, rfl⟩ := List.mem_map.mp item
    exact Nat.le_refl 1
  all_goals
    rw [eq]
    exact Nat.zero_le 2

end ContinuousConfig

namespace ExecutionConfig

/-- **Configurations** are recovered. -/
theorem recovers {c : ExecutionConfig} (h : c.Fits) : decoder.Recovers c.toJson c := by
  cases c with
  | single =>
    refine ⟨Json.printable_obj.mpr ?_, fun {depth} shallow => ?_⟩
    · simp [Json.printable_str]
    obtain _ | depth := depth
    · cases shallow
    rfl
  | continuous c =>
    have content := ContinuousConfig.recovers h
    refine ⟨Json.printable_obj.mpr ?_, fun {depth} shallow => ?_⟩
    · simp [Json.printable_str, content.printable]
    obtain _ | depth := depth
    · cases shallow
    have below : c.toJson.nesting ≤ depth :=
      Json.nesting_obj_le_iff.mp shallow ("continuous", c.toJson) (by simp)
    show (ContinuousConfig.decoder depth (Document.ofJson c.toJson)).map continuous = _
    rw [content.read below]
    rfl

theorem nesting_le (c : ExecutionConfig) : c.toJson.nesting ≤ 4 := by
  cases c with
  | single => decide
  | continuous c =>
    refine Json.nesting_obj_le_iff.mpr fun e mem => ?_
    rcases List.mem_cons.mp mem with rfl | mem
    · exact Nat.zero_le 3
    · obtain rfl := List.mem_singleton.mp mem
      exact c.nesting_le

end ExecutionConfig

/-! ## Forms -/

namespace FormField

/-- The objects in a field list their own fields by ascending name. -/
inductive Ordered : FormField → Prop
  | string : Ordered .string
  | integer : Ordered .integer
  | float : Ordered .float
  | boolean : Ordered .boolean
  | array {f : FormField} (element : f.Ordered) : Ordered (.array f)
  | object {fs : List (String × FormField)} (ascending : Entries.Ascending fs)
    (each : ∀ e ∈ fs, e.2.Ordered) : Ordered (.object fs)

theorem fieldsToJson_eq (fs : List (String × FormField)) :
    fieldsToJson fs = fs.map fun e => (e.1, e.2.toJson) := by
  induction fs with
  | nil => rfl
  | cons e fs ih => simp [fieldsToJson, ih]

theorem printable (f : FormField) (h : f.Ordered) : f.toJson.Printable := by
  induction h with
  | string | integer | float | boolean =>
    refine Json.printable_obj.mpr ?_
    simp [Json.printable_str]
  | array _ ih =>
    refine Json.printable_obj.mpr ?_
    simp [Json.printable_str, ih]
  | object _ _ ih =>
    refine Json.printable_obj.mpr ?_
    simp only [List.forall_mem_cons, Json.printable_str, fieldsToJson_eq, Json.printable_obj,
      List.forall_mem_map]
    exact ⟨trivial, ih, nofun⟩

theorem read_toJson {f : FormField} (h : f.Ordered) (inner : Bool) {depth : Nat}
    (shallow : f.toJson.nesting ≤ depth) :
    read depth inner (Document.ofJson f.toJson) = some f := by
  induction h generalizing inner depth with
  | string | integer | float | boolean =>
    obtain _ | depth := depth
    · cases shallow
    rfl
  | @array f _ ih =>
    obtain _ | depth := depth
    · cases shallow
    have below : f.toJson.nesting ≤ depth :=
      Json.nesting_obj_le_iff.mp shallow ("element", f.toJson) (by simp)
    show (read depth true (Document.ofJson f.toJson)).bind (fun f => some (FormField.array f)) = _
    rw [ih true below]
    rfl
  | @object fs ascending _ ih =>
    obtain _ | depth := depth
    · cases shallow
    have below : (Json.obj (fieldsToJson fs)).nesting ≤ depth :=
      Json.nesting_obj_le_iff.mp shallow ("fields", .obj (fieldsToJson fs)) (by simp)
    have each : ∀ e ∈ fs, read depth true (Document.ofJson e.2.toJson) = some e.2 := by
      intro e mem
      refine ih e mem true (Nat.le_trans ?_ below)
      refine Nat.le_succ_of_le (Json.nestingFields_le_iff.mp (Nat.le_refl _) (e.1, e.2.toJson) ?_)
      rw [fieldsToJson_eq]
      exact List.mem_map_of_mem mem
    have members := Document.mapM_ofFields (g := fun e : String × FormField => e.2.toJson) each
    rw [← fieldsToJson_eq] at members
    have listed : some (FormField.object (Entries.ofList fs)) = some (.object fs) := by
      rw [Entries.ofList_of_ascending ascending]
    have mapped := congrArg (Option.map fun fs => FormField.object (Entries.ofList fs)) members
    exact mapped.trans listed

theorem recovers {f : FormField} (h : f.Ordered) : decoder.Recovers f.toJson f := by
  refine ⟨f.printable h, fun {depth} shallow => ?_⟩
  obtain ⟨v, value⟩ := Option.isSome_iff_exists.mp (Document.isSome_value?_ofJson shallow)
  unfold decoder
  rw [value]
  exact read_toJson h false shallow

end FormField

namespace FormSchema

/-- The fields of a form list their own fields by ascending name. -/
def Ordered (form : FormSchema) : Prop := ∀ e ∈ form.entries, e.2.Ordered

/-- **Form schemas** are recovered, however deep they are nested. -/
theorem recovers {form : FormSchema} (h : form.Ordered) : decoder.Recovers (toJson form) form :=
  Decoder.Recovers.dict fun e mem => FormField.recovers (h e mem)

end FormSchema

/-! ## Results of the compiler -/

namespace CompileResult

/-- **Results of the compiler** are recovered. -/
theorem recovers {r : CompileResult} (h : FormSchema.Ordered r.form) :
    decoder.Recovers r.toJson r := by
  have artifactRead : Decoder.string.option.Recovers (Json.orNull .str r.artifact) r.artifact :=
    Decoder.Recovers.orNull (fun s _ => recovers_string s) nofun
  have outputsRead := OutputSpec.recovers r.outputs
  have formRead := FormSchema.recovers h
  refine ⟨Json.printable_obj.mpr ?_, fun {depth} shallow => ?_⟩
  · simp [artifactRead.printable, outputsRead.printable, formRead.printable]
  obtain _ | depth := depth
  · cases shallow
  let fields := [("artifact_url", Json.orNull .str r.artifact),
    ("output_schema", OutputSpec.toJson r.outputs), ("input_form_schema", FormSchema.toJson r.form)]
  have artifact : (Fields.written depth fields).withDefault "artifact_url" none _ = _ :=
    Fields.withDefault_given rfl artifactRead none shallow
  have outputs : (Fields.written depth fields).withDefault "output_schema" Dict.empty _ = _ :=
    Fields.withDefault_given rfl outputsRead Dict.empty shallow
  have form : (Fields.written depth fields).withDefault "input_form_schema" Dict.empty _ = _ :=
    Fields.withDefault_given rfl formRead Dict.empty shallow
  have read : Fields.read ["artifact_url", "output_schema", "input_form_schema"] (depth + 1)
      (Document.ofJson r.toJson) = some (.written depth fields) := rfl
  unfold decoder
  simp only [read, Option.bind_eq_bind, Option.bind_some, artifact, outputs, form]
  rfl

end CompileResult

/-! ## Settings -/

theorem SchedulerKind.recovers (k : SchedulerKind) : decoder.Recovers (.str k.name) k := by
  refine ⟨Json.printable_str _, fun {depth} _ => ?_⟩
  cases k <;> rfl

namespace Settings

/-- The numbers are words of their widths. -/
structure Fits (s : Settings) : Prop where
  frameRate : s.frameRate ≤ Word.largest32
  interval : s.interval ≤ Word.largest

/-- **Settings** are recovered. -/
theorem recovers {s : Settings} (h : s.Fits) : decoder.Recovers s.toJson s := by
  have narrow : Word.largest32 ≤ Word.largest := by decide
  have frameRateRead := recovers_unsigned h.frameRate narrow
  have intervalRead := recovers_unsigned h.interval (Nat.le_refl _)
  have pathRead (o : Option String) : Decoder.string.option.Recovers (Json.orNull .str o) o :=
    Decoder.Recovers.orNull (fun s _ => recovers_string s) nofun
  refine ⟨Json.printable_obj.mpr ?_, fun {depth} shallow => ?_⟩
  · simp [Json.printable_str, Json.printable_bool, frameRateRead.printable, intervalRead.printable,
      (pathRead _).printable]
  obtain _ | depth := depth
  · cases shallow
  let fields := [("compiler_url", Json.str s.compilerUrl), ("scheduler", .str s.scheduler.name),
    ("frame_rate", .nat s.frameRate), ("default_interval_ms", .nat s.interval),
    ("isolated", .bool s.isolated), ("worker_path", Json.orNull .str s.workerPath),
    ("module_dir", Json.orNull .str s.moduleDir)]
  have given {α : Type} {f : Decoder α} {v : Json} {a : α} (name : String)
      (found : Entries.get? name fields = some v) (recovered : f.Recovers v a) (b : α) :
      (Fields.written depth fields).withDefault name b f = some a :=
    Fields.withDefault_given found recovered b shallow
  have read : Fields.read fieldNames (depth + 1) (Document.ofJson s.toJson) =
      some (.written depth fields) := rfl
  unfold decoder
  simp only [read, Option.bind_eq_bind, Option.bind_some,
    given "compiler_url" rfl (recovers_string _), given "scheduler" rfl s.scheduler.recovers,
    given "frame_rate" rfl frameRateRead, given "default_interval_ms" rfl intervalRead,
    given "isolated" rfl (recovers_bool _), given "worker_path" rfl (pathRead _),
    given "module_dir" rfl (pathRead _)]
  rfl

theorem nesting_le (s : Settings) : s.toJson.nesting ≤ 1 := by
  obtain ⟨compilerUrl, scheduler, frameRate, interval, isolated, workerPath, moduleDir⟩ := s
  cases workerPath <;> cases moduleDir <;> exact Nat.le_refl 1

end Settings

end Cadence
