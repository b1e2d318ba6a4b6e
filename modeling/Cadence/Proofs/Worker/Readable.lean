import Cadence.Module.Catalogue
import Cadence.Proofs.Json.Reading
import Cadence.Proofs.Json.RoundTrip
import Cadence.Proofs.Worker.Mirror
import Cadence.Proofs.Worker.Upkeep

/-!
# Snapshots that can be read

A worker writes the snapshot of its engine however deep it is nested, and the reader at the other
end gives up below a fixed depth. An input is read as a bare record and travels back one level
deeper, and a feedback mapping nests the input as deep as its target is long.

* `Snapshot.run_payload`: a snapshot is read from its text exactly if it is not nested too deep;
* `Worker.exists_engine_of_sent`: snapshots that are sent are those of the engine;
* **`Worker.sent_read_iff`**: what is read of the snapshots that a worker sends, after any commands;
* `Worker.stepped_unread`: a step that is carried out and cannot be read.
-/

namespace Cadence

/-! ## Texts of snapshots -/

namespace Snapshot

variable {s : Snapshot}

theorem WellFormed.words (h : s.WellFormed) : s.toJson.Every Json.InWord := by
  refine ⟨trivial, Json.inWord_nat h.count, h.input.words, ?_, ?_, trivial⟩
  · cases eq : s.outputs with
    | none => trivial
    | some outputs => exact (h.outputs outputs eq).words
  · cases s.error with
    | none => trivial
    | some e => trivial

/-- **A snapshot is read from its text** exactly if it is not nested too deep. -/
theorem run_payload (h : s.WellFormed) (legible : s.toJson.Legible) :
    decoder.run s.toJson.payload = if s.nesting ≤ Document.maxDepth then some s else none := by
  unfold Decoder.run Json.payload
  rw [Document.read?_toText (Json.printable_of_legible h.words legible)]
  exact decoder_toJson h _

theorem WellFormed.readable (h : s.WellFormed) (legible : s.toJson.Legible)
    (shallow : s.nesting ≤ Document.maxDepth) : EngineCall.Readable s := by
  unfold EngineCall.Readable
  rw [run_payload h legible, if_pos shallow]

/-- A snapshot that is nested too deep is refused, and a proxy shows this in place of it. -/
theorem WellFormed.refused (h : s.WellFormed) (legible : s.toJson.Legible)
    (deep : Document.maxDepth < s.nesting) :
    (Reply.ofSnapshot s).snapshot? = .error (.serialization "malformed JSON") ∧
      ∀ last, Proxy.seenAfter last (.ok (.ofSnapshot s)) =
        last.withError "serialization error: malformed JSON" := by
  have read : (Reply.ofSnapshot s).snapshot? = .error (.serialization "malformed JSON") := by
    unfold Reply.ofSnapshot Reply.snapshot? Reply.readSnapshot
    dsimp only
    rw [run_payload h legible, if_neg (Nat.not_le.mpr deep)]
  refine ⟨read, fun last => ?_⟩
  unfold Reply.ofSnapshot at read ⊢
  unfold Proxy.seenAfter
  dsimp only
  rw [read]
  rfl

end Snapshot

theorem Engine.WellFormed.snapshot {e : Engine} (h : e.WellFormed)
    (count : e.stepCount ≤ Word.largest) : e.snapshot.WellFormed :=
  ⟨count, h.input, h.outputs⟩

/-! ## Snapshots that are sent -/

namespace Worker

variable {source : ModuleCache.Source} {w : Worker} {c : Command} {text : Bytes}

/-- **A snapshot that is sent is the engine's**, and behind a step the engine has made it. -/
theorem exists_engine_of_sent (sent : (w.handle source c).2 = .snapshot text) :
    ∃ e, (w.handle source c).1.engine = some e ∧ Reply.ofSnapshot e.snapshot = .snapshot text ∧
      (c = .step → w.engine.map Engine.step = some e) := by
  have handled := w.handled source c
  generalize w.handle source c = answer at handled sent ⊢
  cases handled with
  | idle untold => exact absurd sent (untold text)
  | unloaded | configured => cases sent
  | bound | fed => exact ⟨_, rfl, sent, nofun⟩
  | stepped engine => exact ⟨_, rfl, sent, fun _ => congrArg (Option.map Engine.step) engine⟩

/-- **What is read of a snapshot that is sent.** Let a worker start with proper modules only and
carry out any commands, and let it send a snapshot for one more. Then the snapshot is that of its
engine, which has made the step that was asked for. If the doubles in it are legible, the snapshot
is read back and a proxy shows it, as long as it is nested at most as deep as a document may be; if
it is nested deeper, it is refused, and a proxy shows what it has seen before with an error. -/
theorem sent_read_iff (source : ModuleCache.Source) (cache : ModuleCache) (cs : List Command)
    (c : Command) (text : Bytes)
    (proper : ∀ location k m, source location k = .ok m → m.Proper)
    (cached : cache.Holds Module.Proper) (few : cs.length < Word.largest)
    (sent : ((({ cache } : Worker).handleAll source cs).1.handle source c).2 = .snapshot text) :
    let w := (({ cache } : Worker).handleAll source cs).1
    ∃ e, (w.handle source c).1.engine = some e ∧
      (c = .step → w.engine.map Engine.step = some e) ∧
      Reply.snapshot text = .ofSnapshot e.snapshot ∧
      (e.snapshot.toJson.Legible →
        (e.snapshot.nesting ≤ Document.maxDepth →
          (Reply.snapshot text).snapshot? = .ok e.snapshot ∧
          ∀ last, Proxy.seenAfter last (.ok (.snapshot text)) = e.snapshot) ∧
        (Document.maxDepth < e.snapshot.nesting →
          (Reply.snapshot text).snapshot? = .error (.serialization "malformed JSON") ∧
          ∀ last, Proxy.seenAfter last (.ok (.snapshot text)) =
            last.withError "serialization error: malformed JSON")) := by
  intro w
  have fresh : Kept 0 ({ cache } : Worker) := ⟨cached, nofun⟩
  have before : Kept (0 + cs.length) w := fresh.handleAll proper (by omega)
  have after := before.handle proper (by omega) c
  obtain ⟨e, engine, shown, stepped⟩ := exists_engine_of_sent sent
  obtain ⟨wellFormed, count⟩ := after.engine e engine
  have snapshot : e.snapshot.WellFormed := wellFormed.snapshot (by omega)
  refine ⟨e, engine, stepped, shown.symm, fun legible => ?_⟩
  rw [← shown]
  refine ⟨fun shallow => ?_, snapshot.refused legible⟩
  have readable := snapshot.readable legible shallow
  exact ⟨Reply.snapshot?_ofSnapshot readable, Proxy.seenAfter_ofSnapshot readable⟩

end Worker

/-! ## A long target -/

/-- A text of `n + 1` segments. -/
def longPath (n : Nat) : String := String.ofList ('a' :: (List.replicate n ['.', 'a']).flatten)

theorem Path.splitDots_append_dot {cs : List Char} (plain : ∀ c ∈ cs, c ≠ '.') (ds : List Char) :
    splitDots (cs ++ '.' :: ds) = (cs, (splitDots ds).1 :: (splitDots ds).2) := by
  induction cs with
  | nil => simp [splitDots]
  | cons c cs ih =>
    obtain ⟨first, others⟩ := List.forall_mem_cons.mp plain
    simp [splitDots, ih others, first]

theorem Path.ofText_longPath (n : Nat) :
    Path.ofText (longPath n) = ⟨"a", List.replicate n "a"⟩ := by
  have pieces : splitDots ('a' :: (List.replicate n ['.', 'a']).flatten) =
      (['a'], List.replicate n ['a']) := by
    induction n with
    | zero => rfl
    | succ n ih =>
      have plain : ∀ c ∈ ['a'], c ≠ '.' := by simp
      have split := splitDots_append_dot plain ('a' :: (List.replicate n ['.', 'a']).flatten)
      rw [ih] at split
      exact split
  unfold ofText longPath
  rw [String.toList_ofList, pieces]
  simp

/-- A value below `n` objects. -/
def Json.buried (v : Json) : Nat → Json
  | 0 => v
  | n + 1 => .obj [("a", v.buried n)]

namespace Json

theorem assign_null (v : Json) (n : Nat) :
    Json.assign v (List.replicate n "a") .null = v.buried n := by
  induction n with
  | zero => rfl
  | succ n ih =>
    show Json.obj [("a", Json.assign v (List.replicate n "a") .null)] = _
    rw [ih]
    rfl

theorem nesting_buried (v : Json) (n : Nat) : (v.buried n).nesting = v.nesting + n := by
  induction n with
  | zero => rfl
  | succ n ih => simp [buried, nesting, nestingFields, ih, Nat.add_assoc]

theorem legible_buried (n : Nat) : (Json.null.buried n).Legible := by
  induction n with
  | zero => trivial
  | succ n ih => exact ⟨trivial, ih, trivial⟩

end Json

namespace Worker

/-- A module of one output, which is a field of the input. -/
def fieldModule : Module where
  location := "mem://m"
  resolve _ := some fun r => .ok (Catalogue.fieldOrNull r "value")

/-- It is found everywhere. -/
def fieldSource : ModuleCache.Source := fun _ _ => .ok fieldModule

/-- Its output. -/
def fieldSpec : OutputSpec := Dict.ofList [("y", {})]

/-- The output is fed back to a target of `n + 1` segments. -/
def feedDeep (n : Nat) : ExecutionConfig := .ofMappings [⟨"y", longPath n⟩]

theorem proper_fieldModule : fieldModule.Proper := by
  rintro name _ input _ ⟨⟩ h ⟨⟩
  unfold Catalogue.fieldOrNull
  cases found : input.get? "value" with
  | none => exact Json.wellFormed_null
  | some v => exact h.get? found

/-- The engine behind the first step. -/
def fedEngine (n : Nat) : Engine where
  module := fieldModule
  outputSpec := fieldSpec
  config := feedDeep n
  stepCount := 1
  input := Dict.ofList [("a", Json.null.buried n), (stepField, .nat 1)]
  outputs := some (Dict.ofList [(stepField, .nat 1), ("y", .null)])

theorem feedback_feedDeep (n : Nat) :
    feedback (feedDeep n).mappings (Dict.ofList [(stepField, .nat 1), ("y", .null)])
        (Dict.ofList [(stepField, .nat 1)]) =
      Dict.ofList [("a", Json.null.buried n), (stepField, .nat 1)] := by
  have found : Record.lookup? (Dict.ofList [(stepField, .nat 1), ("y", .null)]) (.ofText "y") =
      some .null := rfl
  show FeedbackMapping.apply ⟨"y", longPath n⟩ _ _ = _
  unfold FeedbackMapping.apply
  rw [found]
  dsimp only
  rw [Path.ofText_longPath]
  show Dict.insert _ "a" (Json.assign .null (List.replicate n "a") .null) = _
  rw [Json.assign_null]
  generalize Json.null.buried n = v
  cbv

theorem step_feedDeep (n : Nat) :
    (Engine.create fieldModule fieldSpec (feedDeep n) .empty).step = fedEngine n := by
  let e := Engine.create fieldModule fieldSpec (feedDeep n) .empty
  have attempted : e.attempt.result = .ok (Dict.ofList [("y", .null)]) := rfl
  have input : e.effectiveInput = Dict.ofList [(stepField, .nat 1)] := rfl
  have outputs : e.stepOutputs (Dict.ofList [("y", .null)]) =
      Dict.ofList [(stepField, .nat 1), ("y", .null)] := rfl
  have config : e.config = feedDeep n := rfl
  show e.step = fedEngine n
  rw [Engine.step_ok attempted, input, outputs, config, feedback_feedDeep]
  rfl

theorem ofList_input (v : Json) :
    (Dict.ofList [("a", v), (stepField, .nat 1)]).entries = [("a", v), (stepField, .nat 1)] := by
  cbv

theorem nesting_fedEngine (n : Nat) : (fedEngine n).snapshot.nesting = n + 2 := by
  have input : (fedEngine n).input.nesting = n + 1 := by
    unfold fedEngine Record.nesting Json.ofRecord
    rw [ofList_input]
    show max (Json.null.buried n).nesting 0 + 1 = n + 1
    rw [Json.nesting_buried]
    simp [Json.nesting]
  have outputs : Record.nesting (Dict.ofList [(stepField, .nat 1), ("y", .null)]) = 1 := by cbv
  show max 0 (max (fedEngine n).input.nesting
    (max (Record.nesting (Dict.ofList [(stepField, .nat 1), ("y", .null)])) (max 0 0))) + 1 = n + 2
  rw [input, outputs]
  omega

theorem legible_fedEngine (n : Nat) : (fedEngine n).snapshot.toJson.Legible := by
  have input : (Json.ofRecord (fedEngine n).input).Legible := by
    unfold fedEngine Json.ofRecord
    rw [ofList_input]
    exact ⟨trivial, Json.legible_buried n, trivial, trivial⟩
  refine ⟨trivial, trivial, input, ?_, trivial, trivial⟩
  show Json.Legible (.obj [(stepField, .nat 1), ("y", .null)])
  exact ⟨trivial, trivial, trivial, trivial⟩

theorem decodes_feedDeep (n : Nat) : BindingDecodes fieldSpec (feedDeep n) .empty := by
  refine ⟨by cbv, ?_, by cbv⟩
  have node : True ∧ True := ⟨trivial, trivial⟩
  have mapping : (FeedbackMapping.toJson ⟨"y", longPath n⟩).Printable := ⟨node, node, node, trivial⟩
  have printable : (feedDeep n).toJson.Printable :=
    ⟨node, node, ⟨node, ⟨node, mapping, trivial⟩, node, trivial⟩, trivial⟩
  unfold Decoder.run Json.payload
  rw [Document.read?_toText printable]
  rfl

/-- An initialisation with such a target. -/
def initDeep (n : Nat) : Command := .initWith "mem://m" fieldSpec (feedDeep n) .empty

theorem handleAll_single (source : ModuleCache.Source) (w : Worker) (c : Command) :
    (w.handleAll source [c]).1 = (w.handle source c).1 := rfl

theorem handle_step {w : Worker} {e : Engine} (engine : w.engine = some e) :
    w.handle source .step = ({ w with engine := some e.step }, .ofSnapshot e.step.snapshot) := by
  unfold handle onEngine
  rw [engine]
  rfl

theorem exists_initDeep (n : Nat) : ∃ w : Worker,
    (({} : Worker).handleAll fieldSource [initDeep n]).1 = w ∧
      w.engine.map Engine.step = some (fedEngine n) ∧
      w.handle fieldSource .step =
        ({ w with engine := some (fedEngine n) }, .ofSnapshot (fedEngine n).snapshot) := by
  have loaded : (({} : Worker).cache.load fieldSource "mem://m").2 = .ok (0, fieldModule) := rfl
  have bound := handle_initWith loaded (decodes_feedDeep n)
  refine ⟨_, rfl, ?_⟩
  rw [handleAll_single, initDeep, bound]
  refine ⟨?_, ?_⟩
  · rw [Option.map_some, step_feedDeep]
  · rw [handle_step rfl, step_feedDeep]

theorem wellFormed_fedEngine (n : Nat) : (fedEngine n).WellFormed := by
  have fresh := Engine.wellFormed_create proper_fieldModule fieldSpec (feedDeep n)
    Record.wellFormed_empty
  have few : (0 : Nat) < Word.largest := by decide
  rw [← step_feedDeep]
  exact fresh.step few

theorem refused_of_deep {n : Nat} (deep : 126 ≤ n) :
    (Reply.ofSnapshot (fedEngine n).snapshot).snapshot? =
        .error (.serialization "malformed JSON") ∧
      ∀ last, Proxy.seenAfter last (.ok (.ofSnapshot (fedEngine n).snapshot)) =
        last.withError "serialization error: malformed JSON" := by
  have few : (fedEngine n).stepCount ≤ Word.largest := by
    show 1 ≤ Word.largest
    decide
  refine ((wellFormed_fedEngine n).snapshot few).refused (legible_fedEngine n) ?_
  rw [nesting_fedEngine, Document.maxDepth]
  omega

/-- **A step that is carried out and cannot be read.** Its output is fed back to a target of 127
segments; a proxy shows its old snapshot with an error. -/
theorem stepped_unread :
    let w := (({} : Worker).handleAll fieldSource [initDeep 126]).1
    let answer := w.handle fieldSource .step
    (∃ e, answer.1.engine = some e ∧ w.engine.map Engine.step = some e ∧ e.stepCount = 1 ∧
      e.error = none ∧ answer.2 = .ofSnapshot e.snapshot) ∧
    answer.2.snapshot? = .error (.serialization "malformed JSON") ∧
    ∀ last, Proxy.seenAfter last (.ok answer.2) =
      last.withError "serialization error: malformed JSON" := by
  obtain ⟨w, eq, stepped, handled⟩ := exists_initDeep 126
  dsimp only
  rw [eq, handled]
  exact ⟨⟨_, rfl, stepped, rfl, rfl, rfl⟩, refused_of_deep (Nat.le_refl 126)⟩

/-- With a target of 126 segments the snapshot behind the step is read, and with one of 127 it is
not. -/
theorem sent_read_iff_initDeep :
    let answer (n : Nat) :=
      ((({} : Worker).handleAll fieldSource [initDeep n]).1.handle fieldSource .step).2
    (answer 125).snapshot? = .ok (fedEngine 125).snapshot ∧
      (answer 126).snapshot? = .error (.serialization "malformed JSON") := by
  have proper : ∀ location k m, fieldSource location k = .ok m → m.Proper := by
    rintro location k _ ⟨⟩
    exact proper_fieldModule
  have cached : ({} : ModuleCache).Holds Module.Proper := nofun
  have few : [Command.ping].length < Word.largest := by decide
  have read (n : Nat) :
      let text := (fedEngine n).snapshot.toJson.payload
      ((({} : Worker).handleAll fieldSource [initDeep n]).1.handle fieldSource .step).2 =
          .snapshot text ∧
        (n + 2 ≤ 127 → (Reply.snapshot text).snapshot? = .ok (fedEngine n).snapshot) ∧
        (127 < n + 2 → (Reply.snapshot text).snapshot? =
          .error (.serialization "malformed JSON")) := by
    obtain ⟨w, rfl, -, handled⟩ := exists_initDeep n
    have sent := congrArg Prod.snd handled
    obtain ⟨e, engine, -, -, read⟩ := sent_read_iff fieldSource {} [initDeep n] .step _ proper
      cached few sent
    rw [handled] at engine
    obtain rfl : fedEngine n = e := Option.some.inj engine
    obtain ⟨shallow, deep⟩ := read (legible_fedEngine n)
    rw [nesting_fedEngine] at shallow deep
    exact ⟨sent, fun le => (shallow le).1, fun lt => (deep lt).1⟩
  obtain ⟨sent, shallow, -⟩ := read 125
  obtain ⟨sent', -, deep⟩ := read 126
  dsimp only
  rw [sent, sent']
  exact ⟨shallow (by decide), deep (by decide)⟩

end Worker

end Cadence
