import Cadence.Proofs.Schedule.Punctual

/-!
# Cancelled frames

A cancelled task never runs if it is still pending. Once a batch has taken it, a cancellation comes
too late and does nothing, even if the task has not started.

* `FrameService.Gone`: a task that will never start; `FrameService.Move.gone`: it stays so;
* `FrameService.startedIds_serve`: the tasks of a batch can start one after the other;
* `FrameService.unmarked`: a service without the list of its cancellations;
* **`FrameService.cancel_iff`**: what a cancellation does;
* **`FrameService.cancelled_in_batch`**: a task that is cancelled in time, and runs.
-/

namespace Cadence.FrameService

variable {s s' : FrameService}

/-! ## Tasks that never start -/

/-- The task of an id that is taken already is neither pending nor in a batch. -/
def Gone (id : Nat) (s : FrameService) : Prop :=
  id < s.queue.nextId ∧ id ∉ s.taken ∧ ∀ t ∈ s.queue.pending, t.id ≠ id

theorem Move.gone {id : Nat} (m : Move s s') (h : Gone id s) : Gone id s' := by
  obtain ⟨old, untaken, apart⟩ := h
  cases m with
  | scheduled delay =>
    refine ⟨Nat.lt_succ_of_lt old, untaken, fun t mem => ?_⟩
    rcases List.mem_append.mp mem with mem | mem
    · exact apart t mem
    · rw [List.mem_singleton.mp mem]
      exact Nat.ne_of_gt old
  | withdrew => exact ⟨old, untaken, fun t mem => apart t (List.mem_of_mem_filter mem)⟩
  | took free =>
    refine ⟨old, fun mem => ?_, fun t mem => apart t (FrameQueue.mem_pending_takeDue.mp mem).1⟩
    rcases List.mem_append.mp mem with mem | mem
    · exact untaken (List.mem_append_left _ mem)
    · obtain ⟨t, due, eq⟩ := List.mem_map.mp mem
      exact apart t (FrameQueue.mem_due.mp due).1 eq
  | aimed free aims =>
    refine ⟨old, fun mem => untaken ?_, apart⟩
    rw [taken, FrameQueue.batch_of_aims aims] at mem
    rwa [taken, free]
  | started free next =>
    refine ⟨old, fun mem => untaken ?_, apart⟩
    rw [taken, startedIds, List.map_append, List.append_assoc] at mem
    rw [taken, FrameQueue.batch, next]
    exact mem
  | _ => exact ⟨old, untaken, apart⟩

theorem Gone.not_mem_startedIds {id : Nat} (h : Gone id s) (more : List Action) :
    id ∉ (s.run more).startedIds := fun mem =>
  (keeps_run (P := Gone id) (fun m h => m.gone h) h more).2.1 (List.mem_append_left _ mem)

/-! ## Tasks of a batch -/

/-- Let the running task finish and the next one start, so many times. -/
def serve (n : Nat) : List Action := (List.replicate n [.finish, .start]).flatten

theorem startedIds_serve {ids : List Nat} (batch : s.queue.batch = ids) :
    (s.run (serve ids.length)).startedIds = s.startedIds ++ ids := by
  induction ids generalizing s with
  | nil => exact (List.append_nil _).symm
  | cons id ids ih =>
    have next : s.queue.phase = .serving (id :: ids) := by
      unfold FrameQueue.batch at batch
      split at batch
      · next serving => rw [serving, batch]
      · cases batch
    have first : s.run [.finish, .start] =
        { s with
          queue := { s.queue with phase := .serving ids }
          running := some id
          starts := s.starts ++ [(id, s.now)] } := by
      show ({ s with running := none } : FrameService).act .start = _
      unfold act FrameQueue.proceed
      dsimp only
      rw [next]
    have split : serve (id :: ids).length = [.finish, .start] ++ serve ids.length := rfl
    rw [split, run_append, first, ih rfl, startedIds, startedIds, List.map_append,
      List.append_assoc]
    rfl

/-! ## Cancellations without effect -/

/-- The service without the list of its cancellations. -/
def unmarked (s : FrameService) : FrameService := { s with cancelled := [] }

theorem unmarked_act (s : FrameService) (a : Action) :
    (s.unmarked.act a).unmarked = (s.act a).unmarked := by
  cases a with
  | look | notice =>
    unfold act
    dsimp only
    rw [apply_ite unmarked, apply_ite unmarked]
    rfl
  | start =>
    unfold act
    dsimp only [unmarked]
    split <;> rfl
  | _ => rfl

theorem unmarked_run (same : s.unmarked = s'.unmarked) (more : List Action) :
    (s.run more).unmarked = (s'.run more).unmarked := by
  induction more generalizing s s' with
  | nil => exact same
  | cons a more ih =>
    refine ih ?_
    rw [← unmarked_act s, ← unmarked_act s', same]

theorem unmarked_cancel {id : Nat} (apart : ∀ t ∈ s.queue.pending, t.id ≠ id) :
    (s.act (.cancel id)).unmarked = s.unmarked := by
  have queue : s.queue.cancel id = s.queue := by
    unfold FrameQueue.cancel
    rw [List.filter_eq_self.mpr fun t mem => by simpa using apart t mem]
  show ({ s with queue := s.queue.cancel id, cancelled := [] } : FrameService) = _
  rw [queue]
  rfl

/-! ## What a cancellation does -/

theorem Kept.not_pending {tasks : List FrameTask} (h : Kept s tasks) {id : Nat}
    (taken : id ∈ s.taken) : ∀ t ∈ s.queue.pending, t.id ≠ id := by
  intro t pending eq
  have once := h.once
  rw [List.map_append, h.ids] at once
  exact List.disjoint_of_nodup_append once taken (eq ▸ List.mem_map_of_mem pending)

/-- **What a cancellation does.** A scheduled task that has not started is kept from running by a
cancellation exactly if no batch has taken it. A cancellation of a task that is not scheduled, that
is running or done, or that a batch has taken changes nothing but the list of cancellations. -/
theorem cancel_iff (frame : Nat) (actions : List Action) (id : Nat) :
    let s := (opened frame).run actions
    (id ∈ s.known.map (·.id) → id ∉ s.startedIds →
      ((∀ more, id ∉ ((s.act (.cancel id)).run more).startedIds) ↔ id ∉ s.queue.batch)) ∧
    (id ∉ s.known.map (·.id) ∨ id ∈ s.startedIds ∨ id ∈ s.queue.batch →
      ∀ more, ((s.act (.cancel id)).run more).unmarked = (s.run more).unmarked) := by
  intro s
  obtain ⟨tasks, h, -⟩ := exists_kept frame actions
  refine ⟨fun known fresh => ⟨fun never waiting => ?_, fun free more => ?_⟩,
    fun other => unmarked_run (unmarked_cancel fun t pending => ?_)⟩
  · have same : (s.act (.cancel id)).queue.batch = s.queue.batch := rfl
    have started := startedIds_serve same
    refine never (serve s.queue.batch.length) ?_
    rw [started]
    exact List.mem_append_right _ waiting
  · obtain ⟨t, mem, rfl⟩ := List.mem_map.mp known
    have gone : Gone t.id (s.act (.cancel t.id)) := by
      refine ⟨h.fresh t mem, ?_, fun u mem => ?_⟩
      · show t.id ∉ s.startedIds ++ s.queue.batch
        rw [List.mem_append, not_or]
        exact ⟨fresh, free⟩
      · simpa using (List.mem_filter.mp mem).2
    exact gone.not_mem_startedIds more
  · rcases other with unknown | taken
    · intro eq
      exact unknown (eq ▸ List.mem_map_of_mem (h.known t (List.mem_append_right _ pending)))
    · exact h.not_pending (List.mem_append.mpr taken) t pending

/-- Two tasks of one batch, of which the first runs, and a third one that is pending. -/
def oneOfTwo : List Action :=
  [.schedule 10000000, .schedule 12000000, .schedule 70000000, .pass 16000000, .look, .start]

/-- The third task is kept from running, the second is not, and for the first, which runs, nothing
changes. -/
theorem cancel_iff_oneOfTwo :
    let s := (opened 16000000).run oneOfTwo
    s.startedIds = [1] ∧ s.queue.batch = [2] ∧
      (∀ more, 3 ∉ ((s.act (.cancel 3)).run more).startedIds) ∧
      (¬ ∀ more, 2 ∉ ((s.act (.cancel 2)).run more).startedIds) ∧
      ∀ more, ((s.act (.cancel 1)).run more).unmarked = (s.run more).unmarked := by
  intro s
  have known : s.known.map (·.id) = [1, 2, 3] := by
    show ((opened 16000000).run oneOfTwo).known.map (·.id) = _
    cbv
  have started : s.startedIds = [1] := by
    show ((opened 16000000).run oneOfTwo).startedIds = _
    cbv
  have batch : s.queue.batch = [2] := by
    show ((opened 16000000).run oneOfTwo).queue.batch = _
    cbv
  refine ⟨started, batch, ?_, ?_, ?_⟩
  · refine ((cancel_iff 16000000 oneOfTwo 3).1 ?_ ?_).mpr ?_
    · rw [show List.map _ ((opened 16000000).run oneOfTwo).known = _ from known]
      decide
    · rw [show ((opened 16000000).run oneOfTwo).startedIds = _ from started]
      decide
    · rw [show ((opened 16000000).run oneOfTwo).queue.batch = _ from batch]
      decide
  · intro never
    refine ((cancel_iff 16000000 oneOfTwo 2).1 ?_ ?_).mp never ?_
    · rw [show List.map _ ((opened 16000000).run oneOfTwo).known = _ from known]
      decide
    · rw [show ((opened 16000000).run oneOfTwo).startedIds = _ from started]
      decide
    · rw [show ((opened 16000000).run oneOfTwo).queue.batch = _ from batch]
      decide
  · refine (cancel_iff 16000000 oneOfTwo 1).2 (.inr (.inl ?_))
    rw [show ((opened 16000000).run oneOfTwo).startedIds = _ from started]
    decide

/-- Two errands of one frame: the first takes 50 ms, and 20 ms later the second has not begun. -/
def twoErrands : Loop Errands :=
  let l : Loop Errands := .create (.frames { frame := 16000000 }) {}
  ((l.send "a" 10 50).1.send "b" 12 0).1.advance Errands.program 20

/-- A task that is cancelled before it starts, and runs: the errand that is called back while the
one before it in its batch is asleep. -/
theorem cancelled_in_batch :
    let s := (opened 16000000).run oneOfTwo
    2 ∈ s.known.map (·.id) ∧ 2 ∉ s.startedIds ∧
      2 ∈ ((s.act (.cancel 2)).run [.finish, .start]).startedIds ∧
      twoErrands.program.notes = [(16, "a")] ∧
      ((twoErrands.callBack "b").advance Errands.program 100).program.notes =
        [(16, "a"), (66, "a done"), (66, "b")] := by
  have known : ((opened 16000000).run oneOfTwo).known.map (·.id) = [1, 2, 3] := by cbv
  have started : ((opened 16000000).run oneOfTwo).startedIds = [1] := by cbv
  have late : (((opened 16000000).run oneOfTwo).act (.cancel 2) |>.run [.finish, .start]).startedIds
      = [1, 2] := by cbv
  refine ⟨?_, ?_, ?_, by cbv, by cbv⟩
  · rw [known]
    decide
  · rw [started]
    decide
  · rw [late]
    decide

end Cadence.FrameService
