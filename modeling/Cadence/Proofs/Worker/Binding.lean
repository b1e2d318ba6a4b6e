import Cadence.Proofs.Json.Typed
import Cadence.Proofs.Worker.Mirror

/-!
# What a worker binds

The payloads of a command are written from typed values and read by the worker. What it binds is
what was given, whatever fields are left out, filled in or nested on the way.

* `Record.Portable`: a record that is read back;
* `Worker.bindingDecodes`: all that an initialisation carries;
* **`Worker.binds_what_is_given`**: typed payloads are read back, and a worker binds them.
-/

namespace Cadence

theorem Decoder.Recovers.payload {α : Type} {f : Decoder α} {v : Json} {a : α}
    (h : f.Recovers v a) (shallow : v.nesting ≤ Document.maxDepth) : f.run v.payload = some a :=
  h.run shallow

/-! ## Each type -/

theorem OutputSpec.run_payload (spec : OutputSpec) :
    decoder.run (toJson spec).payload = some spec :=
  (recovers spec).payload (Nat.le_trans (nesting_le spec) (by decide))

theorem ExecutionConfig.run_payload {c : ExecutionConfig} (h : c.Fits) :
    decoder.run c.toJson.payload = some c :=
  (recovers h).payload (Nat.le_trans c.nesting_le (by decide))

theorem Settings.run_payload {s : Settings} (h : s.Fits) : decoder.run s.toJson.payload = some s :=
  (recovers h).payload (Nat.le_trans s.nesting_le (by decide))

/-- A record that can be read back: integers are words, keys ascend, doubles are legible, and
nothing is nested deeper than a document may be. -/
structure Record.Portable (r : Record) : Prop where
  wellFormed : r.WellFormed
  legible : (Json.ofRecord r).Legible
  shallow : r.nesting ≤ Document.maxDepth

theorem Record.Portable.run_payload {r : Record} (h : r.Portable) :
    Decoder.record.run (Json.ofRecord r).payload = some r :=
  (Decoder.recovers_record h.wellFormed h.legible).payload h.shallow

/-! ## Commands -/

namespace Worker

theorem bindingDecodes {config : ExecutionConfig} {input : Record} (spec : OutputSpec)
    (fits : config.Fits) (portable : input.Portable) : BindingDecodes spec config input :=
  ⟨OutputSpec.run_payload spec, ExecutionConfig.run_payload fits, portable.run_payload⟩

/-- **Typed payloads are read back**, and so a worker binds exactly what its commands were made of:
the specification, the configuration and the input of an initialisation, and later the input or the
configuration in place of the one before. Numbers are words of the width that their type has,
objects list their fields by ascending name, and forms are not nested deeper than a document may be.
-/
theorem binds_what_is_given (source : ModuleCache.Source) (w : Worker) :
    (∀ spec : OutputSpec, OutputSpec.decoder.run (OutputSpec.toJson spec).payload = some spec) ∧
    (∀ config : ExecutionConfig, config.Fits →
      ExecutionConfig.decoder.run config.toJson.payload = some config) ∧
    (∀ form : FormSchema, form.Ordered → (FormSchema.toJson form).nesting ≤ Document.maxDepth →
      FormSchema.decoder.run (FormSchema.toJson form).payload = some form) ∧
    (∀ result : CompileResult, FormSchema.Ordered result.form →
      result.toJson.nesting ≤ Document.maxDepth →
      CompileResult.decoder.run result.toJson.payload = some result) ∧
    (∀ settings : Settings, settings.Fits →
      Settings.decoder.run settings.toJson.payload = some settings) ∧
    (∀ input : Record, input.Portable →
      Decoder.record.run (Json.ofRecord input).payload = some input) ∧
    (∀ (location : String) (spec : OutputSpec) (config : ExecutionConfig) (input : Record) (k : Nat)
      (m : Module), config.Fits → input.Portable →
      (w.cache.load source location).2 = .ok (k, m) →
      w.handle source (.initWith location spec config input) =
        ({ cache := (w.cache.load source location).1
           engine := some { module := m, outputSpec := spec, config, input, stepCount := 0
                            outputs := none, error := none } },
          .ofSnapshot ⟨0, input, none, none⟩)) ∧
    (∀ (e : Engine) (input : Record), w.engine = some e → input.Portable →
      w.handle source (.setInputTo input) =
        ({ w with engine := some { e with input, outputs := none, error := none } },
          .ofSnapshot ⟨e.stepCount, input, none, none⟩)) ∧
    ∀ (e : Engine) (config : ExecutionConfig), w.engine = some e → config.Fits →
      w.handle source (.setConfigTo config) =
        ({ w with engine := some { e with config } }, .ack) := by
  refine ⟨OutputSpec.run_payload, fun _ => ExecutionConfig.run_payload, ?_, ?_,
    fun _ => Settings.run_payload, fun _ => Record.Portable.run_payload, ?_, ?_, ?_⟩
  · intro form ordered shallow
    exact (FormSchema.recovers ordered).payload shallow
  · intro result ordered shallow
    exact (CompileResult.recovers ordered).payload shallow
  · intro location spec config input k m fits portable loaded
    exact handle_initWith loaded (bindingDecodes spec fits portable)
  · intro e input engine portable
    have decodes : EngineCall.Decodes e (.setInput input) := portable.run_payload
    exact handle_call engine decodes rfl
  · intro e config engine fits
    have decodes : EngineCall.Decodes e (.setConfig config) := ExecutionConfig.run_payload fits
    exact handle_call engine decodes rfl

/-! ## A nested form -/

/-- Continuous execution without a speed, up to the largest word. -/
def longConfig : ExecutionConfig := .continuous
  { mappings := [⟨"a.b", "c"⟩], limit := some Word.largest, autoStart := true }

/-- A form with a list of objects. -/
def nestedForm : FormSchema :=
  Dict.ofList [("rows", .array (.object [("cell", .float), ("name", .string)]))]

/-- A record with a nested value. -/
def nestedInput : Record := Dict.ofList [("rows", .arr [.obj [("name", .str "n")], .int (-5)])]

/-- The form and the configuration are read back, and the record is bound. -/
theorem binds_nestedInput :
    let spec : OutputSpec := Dict.ofList [("y", { type := some .other })]
    let w : Worker := {}
    let result : CompileResult := { outputs := spec, form := nestedForm }
    ExecutionConfig.decoder.run longConfig.toJson.payload = some longConfig ∧
      FormSchema.decoder.run (FormSchema.toJson nestedForm).payload = some nestedForm ∧
      CompileResult.decoder.run result.toJson.payload = some result ∧
      Settings.decoder.run (Settings.toJson {}).payload = some {} ∧
      ∃ w' e, w.handle (fun _ _ => .ok stopModule) (.initWith "m" spec longConfig nestedInput) =
        (w', .ofSnapshot ⟨0, nestedInput, none, none⟩) ∧ w'.engine = some e ∧
        e.outputSpec = spec ∧ e.config = longConfig ∧ e.input = nestedInput := by
  intro spec w result
  have fits : longConfig.Fits := ⟨by simp [longConfig, ExecutionConfig.speed],
    by simp [longConfig, ExecutionConfig.limit]⟩
  have ordered : nestedForm.Ordered := by
    rintro _ (_ | ⟨_, ⟨⟩⟩)
    refine .array (.object (by decide) ?_)
    rintro _ (_ | ⟨_, _ | ⟨_, ⟨⟩⟩⟩)
    · exact .float
    · exact .string
  have portable : nestedInput.Portable := by
    have text : (Json.str "n").WellFormed := ⟨trivial, trivial⟩
    have named : (Json.obj [("name", .str "n")]).WellFormed := Json.wellFormed_single text "name"
    have number : (Json.int (-5)).WellFormed := ⟨⟨by decide, by decide⟩, trivial⟩
    have listed : (Json.arr [.obj [("name", .str "n")], .int (-5)]).WellFormed :=
      Json.wellFormed_arr.mpr (List.forall_mem_cons.mpr ⟨named, by simpa using number⟩)
    refine ⟨Record.wellFormed_iff.mpr ?_, ?_, by decide⟩
    · rintro _ (_ | ⟨_, ⟨⟩⟩)
      exact listed
    · exact ⟨trivial, ⟨trivial, ⟨trivial, trivial, trivial⟩, trivial, trivial⟩, trivial⟩
  obtain ⟨-, configs, forms, results, settings, -, inits, -, -⟩ :=
    binds_what_is_given (fun _ _ => .ok stopModule) w
  exact ⟨configs _ fits, forms _ ordered (by decide), results _ ordered (by decide),
    settings _ ⟨by decide, by decide⟩, _, _, inits "m" spec _ _ 0 stopModule fits portable rfl, rfl,
    rfl, rfl, rfl⟩

end Worker

end Cadence
