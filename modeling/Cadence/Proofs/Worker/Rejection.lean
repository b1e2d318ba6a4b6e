import Cadence.Proofs.Module.Offer
import Cadence.Proofs.Worker.Upkeep

/-!
# Commands that are rejected

A command that a worker answers with an error leaves no trace: it keeps the engine and all modules
in the cache, and no later answer depends on it.

* `Worker.Alike`: workers with the same engine and the same modules;
* `Worker.bindFresh_eq`: an initialisation, as far as alike workers can tell;
* **`Worker.Alike.handle`**: alike workers give the same answers and stay alike;
* **`Worker.alike_of_rejected`**: a rejected command leaves a worker alike to itself;
* **`Worker.rejected_as_if_unsent`**: a rejected command may be left out of any list of commands.
-/

namespace Cadence

namespace Worker

/-- Two workers with the same engine and the same modules. -/
structure Alike (w w' : Worker) : Prop where
  engine : w.engine = w'.engine
  modules : ∀ location, w.cache.module? location = w'.cache.module? location

variable {source : ModuleCache.Source} {w w' : Worker}

theorem Alike.refl (w : Worker) : Alike w w := ⟨rfl, fun _ => rfl⟩

theorem Alike.rebind (h : Alike w w') (engine : Option Engine) :
    Alike { w with engine } { w' with engine } :=
  ⟨rfl, h.modules⟩

/-! ## One command -/

theorem bindFresh_eq (orderly : w.cache.Orderly) (steady : source.Steady) (location : String)
    (spec config input : Bytes) :
    let loaded := (w.cache.load source location).1
    w.bindFresh source location spec config input =
      match readBinding spec config input with
      | .error fault => (w, refusal fault)
      | .ok (s, g, r) =>
        match w.cache.offer source location with
        | .error cause => ({ w with cache := loaded }, refusal (.load cause))
        | .ok m =>
          (⟨loaded, some (.create m s g r)⟩, .ofSnapshot (Engine.create m s g r).snapshot) := by
  intro loaded
  obtain ⟨-, offered, -⟩ := orderly.load_spec steady location
  unfold bindFresh
  cases readBinding spec config input with
  | error fault => rfl
  | ok b =>
    rw [← offered]
    rcases eq : w.cache.load source location with ⟨cache, result⟩
    have cached : loaded = cache := congrArg Prod.fst eq
    rw [cached]
    cases result <;> rfl

theorem orderly_handle (orderly : w.cache.Orderly) (steady : source.Steady) (c : Command) :
    (w.handle source c).1.cache.Orderly := by
  have handled := w.handled source c
  generalize w.handle source c = answer at handled
  cases handled with
  | idle | fed | configured | stepped => exact orderly
  | @unloaded location _ _ _ cache _ loaded | @bound location _ _ _ _ _ _ cache _ _ _ loaded =>
    have kept := (orderly.load_spec steady location).1
    rw [loaded] at kept
    exact kept

/-- A load changes the tables of alike workers in the same way. -/
theorem Alike.load (h : Alike w w') (orderly : w.cache.Orderly) (orderly' : w'.cache.Orderly)
    (steady : source.Steady) (location : String) (engine : Option Engine) :
    Alike ⟨(w.cache.load source location).1, engine⟩
      ⟨(w'.cache.load source location).1, engine⟩ := by
  obtain ⟨-, -, table⟩ := orderly.load_spec steady location
  obtain ⟨-, -, table'⟩ := orderly'.load_spec steady location
  refine ⟨rfl, fun l => ?_⟩
  show ModuleCache.module? _ l = ModuleCache.module? _ l
  rw [table, table', ModuleCache.offer_eq_of_module? h.modules, h.modules l]

theorem Alike.onEngine (h : Alike w w') (f : Engine → Except Fault (Engine × Reply)) :
    (w.onEngine f).2 = (w'.onEngine f).2 ∧ Alike (w.onEngine f).1 (w'.onEngine f).1 := by
  cases engine : w.engine with
  | none =>
    rw [onEngine_none engine, onEngine_none (h.engine.symm.trans engine)]
    exact ⟨rfl, h⟩
  | some e =>
    have engine' := h.engine.symm.trans engine
    cases done : f e with
    | error fault =>
      rw [onEngine_error engine done, onEngine_error engine' done]
      exact ⟨rfl, h⟩
    | ok p =>
      rw [onEngine_ok engine done, onEngine_ok engine' done]
      exact ⟨rfl, h.rebind _⟩

/-- **Alike workers** answer a command alike, and are alike behind it. -/
theorem Alike.handle (h : Alike w w') (orderly : w.cache.Orderly) (orderly' : w'.cache.Orderly)
    (steady : source.Steady) (c : Command) :
    (w.handle source c).2 = (w'.handle source c).2 ∧
      Alike (w.handle source c).1 (w'.handle source c).1 := by
  cases c with
  | init location spec config input =>
    show (w.bindFresh source _ _ _ _).2 = (w'.bindFresh source _ _ _ _).2 ∧
      Alike (w.bindFresh source _ _ _ _).1 (w'.bindFresh source _ _ _ _).1
    rw [bindFresh_eq orderly steady, bindFresh_eq orderly' steady,
      ← ModuleCache.offer_eq_of_module? h.modules]
    cases readBinding spec config input with
    | error fault => exact ⟨rfl, h⟩
    | ok b =>
      dsimp only
      cases w.cache.offer source location with
      | error cause =>
        have loaded := h.load orderly orderly' steady location w.engine
        exact ⟨rfl, h.engine, loaded.modules⟩
      | ok m => exact ⟨rfl, h.load orderly orderly' steady location _⟩
  | setInput input => exact h.onEngine _
  | setConfig config => exact h.onEngine _
  | step => exact h.onEngine _
  | ping | shutdown => exact ⟨rfl, h⟩

/-- **A rejected command** changes neither the engine nor the modules. -/
theorem alike_of_rejected (orderly : w.cache.Orderly) (steady : source.Steady) {c : Command}
    {text : String} (rejected : (w.handle source c).2 = .error text) :
    Alike (w.handle source c).1 w := by
  have handled := w.handled source c
  generalize w.handle source c = answer at handled rejected ⊢
  cases handled with
  | idle => exact .refl w
  | @unloaded location _ _ _ cache f loaded =>
    obtain ⟨-, offered, table⟩ := orderly.load_spec steady location
    rw [loaded] at offered table
    have failed : w.cache.offer source location = .error f := offered.symm
    refine ⟨rfl, fun l => ?_⟩
    show cache.module? l = _
    rw [table, failed]
    by_cases own : l = location
    · -- a module in the cache would have been on offer
      subst own
      rw [if_pos rfl]
      cases found : w.cache.module? l with
      | none => rfl
      | some m =>
        unfold ModuleCache.offer at failed
        rw [found] at failed
        split at failed
        · next empty =>
          subst empty
          cases entry : Entries.get? "" w.cache.entries with
          | none => simp [ModuleCache.module?, entry] at found
          | some t =>
            have own := orderly.own _ (ModuleCache.mem_of_get?_eq_some entry)
            exact absurd own (orderly.named t)
        · cases failed
    · rw [if_neg own]
  | bound | fed | configured | stepped => cases rejected

/-! ## Lists of commands -/

theorem orderly_handleAll (orderly : w.cache.Orderly) (steady : source.Steady)
    (cs : List Command) : (w.handleAll source cs).1.cache.Orderly := by
  induction cs generalizing w with
  | nil => exact orderly
  | cons c cs ih => exact ih (orderly_handle orderly steady c)

/-- Alike workers answer all commands alike. -/
theorem Alike.handleAll (h : Alike w w') (orderly : w.cache.Orderly) (orderly' : w'.cache.Orderly)
    (steady : source.Steady) (cs : List Command) :
    (w.handleAll source cs).2 = (w'.handleAll source cs).2 ∧
      Alike (w.handleAll source cs).1 (w'.handleAll source cs).1 := by
  induction cs generalizing w w' with
  | nil => exact ⟨rfl, h⟩
  | cons c cs ih =>
    obtain ⟨answer, next⟩ := h.handle orderly orderly' steady c
    obtain ⟨answers, last⟩ :=
      ih next (orderly_handle orderly steady c) (orderly_handle orderly' steady c)
    exact ⟨List.cons_eq_cons.mpr ⟨answer, answers⟩, last⟩

theorem handleAll_append (source : ModuleCache.Source) (w : Worker) (cs ds : List Command) :
    w.handleAll source (cs ++ ds) =
      (((w.handleAll source cs).1.handleAll source ds).1,
        (w.handleAll source cs).2 ++ ((w.handleAll source cs).1.handleAll source ds).2) := by
  induction cs generalizing w with
  | nil => rfl
  | cons c cs ih =>
    rw [List.cons_append, Worker.handleAll, ih]
    rfl

/-- **A rejected command is as good as unsent.** A worker has any engine, and a cache that others
may have used before. If one of its commands is answered with an error, then all others have the
answers that they have without it, the engine and the modules in the cache are the same in the end,
and right behind the command the engine is the one from before. -/
theorem rejected_as_if_unsent (source : ModuleCache.Source) (steady : source.Steady)
    (actions : List Traffic.Action) (engine : Option Engine) (cs : List Command) (i : Nat)
    (text : String)
    (rejected : ((Worker.mk (Traffic.run {} actions).cache engine).handleAll source cs).2[i]? =
      some (.error text)) :
    let w : Worker := ⟨(Traffic.run {} actions).cache, engine⟩
    let sent := w.handleAll source cs
    let unsent := w.handleAll source (cs.eraseIdx i)
    unsent.2 = sent.2.eraseIdx i ∧ unsent.1.engine = sent.1.engine ∧
      (∀ location, unsent.1.cache.module? location = sent.1.cache.module? location) ∧
      (w.handleAll source (cs.take (i + 1))).1.engine =
        (w.handleAll source (cs.take i)).1.engine := by
  intro w sent unsent
  have orderly : w.cache.Orderly := (Traffic.coherent_empty.run actions).orderly
  have lt : i < cs.length := by
    obtain ⟨lt, -⟩ := List.getElem?_eq_some_iff.mp rejected
    rwa [length_handleAll] at lt
  -- the run comes to `v`, handles the command that is rejected, and goes on
  have before : (w.handleAll source (cs.take i)).2.length = i := by
    rw [length_handleAll, List.length_take_of_le (Nat.le_of_lt lt)]
  have split : cs = cs.take i ++ cs[i] :: cs.drop (i + 1) := by
    rw [← List.drop_eq_getElem_cons lt, List.take_append_drop]
  have upTo : cs.take (i + 1) = cs.take i ++ [cs[i]] := List.take_succ_eq_append_getElem lt
  have without : cs.eraseIdx i = cs.take i ++ cs.drop (i + 1) := List.eraseIdx_eq_take_drop_succ ..
  generalize cs.take i = pre, cs[i] = c, cs.drop (i + 1) = post at before split upTo without
  let v := (w.handleAll source pre).1
  have whole : sent = (((v.handle source c).1.handleAll source post).1,
      (w.handleAll source pre).2 ++
        (v.handle source c).2 :: ((v.handle source c).1.handleAll source post).2) := by
    show w.handleAll source cs = _
    rw [split, handleAll_append]
    rfl
  have parts : unsent = ((v.handleAll source post).1,
      (w.handleAll source pre).2 ++ (v.handleAll source post).2) := by
    show w.handleAll source (cs.eraseIdx i) = _
    rw [without, handleAll_append]
  have answer : (v.handle source c).2 = .error text := by
    have there : sent.2[i]? = some (.error text) := rejected
    rw [whole, List.getElem?_append_right (Nat.le_of_eq before), before, Nat.sub_self] at there
    exact Option.some.inj there
  have orderlyThere : v.cache.Orderly := orderly_handleAll orderly steady pre
  have alike := alike_of_rejected orderlyThere steady answer
  obtain ⟨answers, last⟩ :=
    alike.handleAll (orderly_handle orderlyThere steady c) orderlyThere steady post
  refine ⟨?_, ?_, fun location => ?_, ?_⟩
  · rw [parts, whole, List.eraseIdx_append_of_length_le (Nat.le_of_eq before), before,
      Nat.sub_self]
    exact congrArg _ answers.symm
  · rw [parts, whole]
    exact last.engine.symm
  · rw [parts, whole]
    exact (last.modules location).symm
  · rw [upTo, handleAll_append]
    exact alike.engine

/-! ## A failed initialisation -/

/-- A source that has one module only. -/
def sizeSource : ModuleCache.Source := fun location _ =>
  if location = "m" then .ok sizeModule else .error (.transfer 404 "Not Found")

/-- An initialisation, a step, another initialisation that fails, and another step. -/
def failingCommands : List Command :=
  [.initWith "m" (Dict.ofList [("n", {})]) .single .empty, .step,
    .initWith "gone" (Dict.ofList [("n", {})]) .single .empty, .step]

/-- Behind the failed initialisation, the first engine takes its second step. -/
theorem rejected_as_if_unsent_missingModule :
    (({} : Worker).handleAll sizeSource failingCommands).2[2]? =
        some (.error "HTTP 404: Not Found") ∧
      (({} : Worker).handleAll sizeSource (failingCommands.eraseIdx 2)).2 =
        (({} : Worker).handleAll sizeSource failingCommands).2.eraseIdx 2 ∧
      (({} : Worker).handleAll sizeSource (failingCommands.eraseIdx 2)).1.engine =
        (({} : Worker).handleAll sizeSource failingCommands).1.engine ∧
      (({} : Worker).handleAll sizeSource failingCommands).1.engine.map Engine.stepCount =
        some 2 := by
  have rejected : (({} : Worker).handleAll sizeSource failingCommands).2[2]? =
      some (.error "HTTP 404: Not Found") := by decide +kernel
  have unused : Worker.mk (Traffic.run {} []).cache none = {} := rfl
  have asUnsent := rejected_as_if_unsent sizeSource (fun _ _ _ => rfl) [] none failingCommands 2
    "HTTP 404: Not Found"
  rw [unused] at asUnsent
  obtain ⟨answers, engines, -, -⟩ := asUnsent rejected
  exact ⟨rejected, answers, engines, by decide +kernel⟩

end Worker

end Cadence
