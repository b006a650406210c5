import GormForge.Proofs.Emission.Files
import GormForge.Proofs.Emission.Steps

/-!
# Accounting for the workers of an emission

What the submitter, the stop flag and the results that were sent have to do with the workers
that were started.

**Results.**
* `Reaches.entries`: workers were started for the models in order, and for all of them unless
  the stop flag is raised.
* `Reaches.blame`: behind a raised flag stands a worker that failed for a cause of its own, and a
  worker that only stopped saw a raised flag.
* `Reaches.sent_perm`: every result is sent once.
* `Reaches.returned`: an emission returns when all workers are gone.
-/

namespace GormForge
namespace Emission

variable {job : Job}
variable {tree : FileTree}
variable {state : State}

/-! ## Started workers -/

/-- The models that the submitter has yet to start, which may be any once it was stopped. -/
def SubmitterPhase.Leaves (stopped : Bool) (left : List (GoStruct × Nat)) :
    SubmitterPhase → Prop
  | waiting rest => left = rest
  | admitted model index rest => left = (model, index) :: rest
  | joining => left = [] ∨ stopped = true
  | returned _ => left = [] ∨ stopped = true

theorem SubmitterPhase.Leaves.raise
    {phase : SubmitterPhase}
    {stopped : Bool}
    {left : List (GoStruct × Nat)}
    (h : phase.Leaves stopped left)
    (raised : Bool) :
    phase.Leaves (stopped || raised) left := by
  cases phase with
  | waiting | admitted => exact h
  | joining | returned => exact h.imp_right fun hstop => by simp [hstop]

/-- Workers are started for the models in order. -/
theorem Reaches.entries
    (h : Reaches job tree state) :
    ∃ left,
      state.workers.map Worker.entry ++ left = job.models.zipIdx ∧
        state.submitter.Leaves state.stopped left := by
  induction h with
  | start => exact ⟨job.models.zipIdx, rfl, rfl⟩
  | move move _ hmove ih =>
      obtain ⟨left, hentries, hleft⟩ := ih
      cases State.step_of_move hmove with
      | finish hs =>
          rw [hs] at hleft
          exact ⟨left, hentries, Or.inl hleft⟩
      | enter hs hp =>
          rw [hs] at hleft
          exact ⟨left, hentries, hleft⟩
      | giveUp hs hstop => exact ⟨left, hentries, Or.inr hstop⟩
      | begin hs hgo =>
          rw [hs] at hleft
          refine ⟨_, ?_, rfl⟩
          rw [← hentries, hleft]
          simp [Worker.entry]
      | join hs hgone =>
          rw [hs] at hleft
          exact ⟨left, hentries, hleft⟩
      | work hw hn =>
          refine ⟨left, ?_, hleft.raise _⟩
          rw [← hentries, hw]
          simp [Worker.entry]

/-! ## The stop flag -/

/-- A worker that comes to nothing but the word that it stopped saw a raised flag. -/
theorem WorkerPhase.result?_of_isCancelled
    {model : GoStruct}
    {stopped : Bool}
    {after : FileTree}
    {phase later : WorkerPhase}
    {e : GenerateError}
    (hn : phase.next job model stopped tree = some (later, after))
    (hr : later.result? = some (.error e))
    (he : e.isCancelled = true) :
    phase.result? = some (.error e) ∨ stopped = true := by
  cases step_of_next hn with
  | giveUp hstop => exact Or.inr hstop
  | goOn | prepare => cases hr
  | refuse hprepare =>
      cases hr
      rw [Emitter.isCancelled_of_prepareFile hprepare] at he
      cases he
  | spoil hstore =>
      cases hr
      obtain ⟨_, rfl⟩ := Emitter.storeFile_error hstore
      cases he
  | store => exact absurd hr (result?_before_ne_error _ _ _)
  | settle | send | leave => exact Or.inl hr

theorem Worker.failure?_eq_some_iff
    {worker : Worker}
    {e : GenerateError} :
    worker.failure? = some e ↔
      worker.phase.result? = some (.error e) ∧ e.isCancelled = false := by
  unfold failure?
  split
  · next cause hr =>
      rw [hr]
      by_cases hc : cause.isCancelled
      · simp only [hc, if_true, Option.some.injEq, Except.error.injEq]
        constructor
        · intro h
          cases h
        · rintro ⟨rfl, hnot⟩
          rw [hc] at hnot
          cases hnot
      · simp only [hc, Option.some.injEq, Except.error.injEq]
        constructor
        · intro h
          cases h
          exact ⟨rfl, by simpa using hc⟩
        · rintro ⟨rfl, -⟩
          rfl
  · next hr =>
      constructor
      · intro h
        cases h
      · rintro ⟨herr, -⟩
        exact absurd herr (hr e)

/-- A failure stays. -/
theorem Worker.failure?_next
    {worker : Worker}
    {later : WorkerPhase}
    {after : FileTree}
    {stopped : Bool}
    {e : GenerateError}
    (hn : worker.phase.next job worker.model stopped tree = some (later, after))
    (hf : worker.failure? = some e) :
    ({ worker with phase := later } : Worker).failure? = some e := by
  rw [Worker.failure?_eq_some_iff] at hf ⊢
  exact ⟨(WorkerPhase.result?_next hn hf.1).1, hf.2⟩

/-- Behind a raised flag stands a worker that failed for a cause of its own, and a worker that
only stopped saw a raised flag. -/
theorem Reaches.blame
    (h : Reaches job tree state) :
    (state.stopped = true → ∃ worker ∈ state.workers, worker.failure?.isSome = true) ∧
      ∀ worker ∈ state.workers, ∀ e,
        worker.phase.result? = some (.error e) → e.isCancelled = true →
          state.stopped = true := by
  induction h with
  | start => exact ⟨fun hstop => (by cases hstop), by simp [State.start]⟩
  | @move state _ move _ hmove ih =>
      obtain ⟨hraised, hsaw⟩ := ih
      have hstep := State.step_of_move hmove
      refine ⟨fun hstop => ?_, hstep.forall_workers ?_ ?_ ?_⟩
      · obtain ⟨failed, hfailed, hfail⟩ :
            ∃ failed ∈ state.workers, failed.failure?.isSome = true := by
          rcases hstep.stopped_cases hstop with hstop | ⟨worker, hin, hraise⟩
          · exact hraised hstop
          · -- the worker raises the flag itself, or repeats what it saw
            obtain ⟨e, hphase⟩ := WorkerPhase.exists_error_of_raises hraise
            have he : worker.phase.result? = some (.error e) := by rw [hphase]; rfl
            by_cases hc : e.isCancelled = true
            · exact hraised (hsaw worker hin e he hc)
            · have hfail := Worker.failure?_eq_some_iff.mpr ⟨he, by simpa using hc⟩
              exact ⟨worker, hin, by rw [hfail]; rfl⟩
        -- the failure stays with its worker, which may be the one that moves
        refine hstep.exists_worker hfailed hfail fun later hn => ?_
        obtain ⟨e, he⟩ := Option.isSome_iff_exists.mp hfail
        rw [Worker.failure?_next hn he]
        rfl
      · exact fun worker hw e hr he => hstep.stopped_mono (hsaw worker hw e hr he)
      · intro model index e hr
        cases hr
      · intro worker hw later hn _ e hr he
        refine hstep.stopped_mono ?_
        rcases WorkerPhase.result?_of_isCancelled hn hr he with hbefore | hstop
        · exact hsaw worker hw e hbefore he
        · exact hstop

/-! ## Results -/

/-- What a worker has sent, with the place of its model. -/
def Worker.report? (worker : Worker) : Option (Nat × UnitResult) :=
  worker.phase.sent?.map fun result => (worker.index, result)

/-- Every result is sent once. -/
theorem Reaches.sent_perm
    (h : Reaches job tree state) :
    state.sent.Perm (state.workers.filterMap Worker.report?) := by
  induction h with
  | start => exact List.Perm.refl _
  | @move state _ move _ hmove ih =>
      cases State.step_of_move hmove with
      | finish | enter | giveUp | join => exact ih
      | begin hs hgo =>
          rw [List.filterMap_append]
          exact (List.append_nil _).symm ▸ ih
      | @work front back worker later after hw hn =>
          have hsent := WorkerPhase.sent?_next hn
          rw [hw, List.filterMap_append, List.filterMap_cons] at ih
          rw [List.filterMap_append, List.filterMap_cons]
          cases hsends : worker.phase.sends? with
          | none =>
              rw [hsends, Option.or_none] at hsent
              simpa [Worker.report?, hsent] using ih
          | some result =>
              obtain ⟨hbefore, hafter⟩ :
                  worker.phase.sent? = none ∧ later.sent? = some result := by
                cases hphase : worker.phase with
                | sending r =>
                    rw [hphase] at hsends hsent
                    cases hsends
                    exact ⟨rfl, hsent⟩
                | _ =>
                    rw [hphase] at hsends
                    cases hsends
              simp only [Worker.report?, hbefore, hafter, Option.map_none, Option.map_some,
                Option.toList_some] at ih ⊢
              refine (List.Perm.append_right _ ih).trans ?_
              rw [List.append_assoc]
              exact List.Perm.append_left _ (List.perm_append_singleton _ _)

/-- An emission returns when all workers are gone, with what they sent. -/
theorem Reaches.returned
    (h : Reaches job tree state)
    {result : UnitResult}
    (hret : state.returned? = some result) :
    (∀ worker ∈ state.workers, worker.isGone = true) ∧ result = collect state.sent := by
  induction h with
  | start => cases hret
  | @move state _ move _ hmove ih =>
      cases State.step_of_move hmove with
      | finish | enter | giveUp | begin => cases hret
      | join hs hgone =>
          cases hret
          exact ⟨hgone, rfl⟩
      | @work front back worker later after hw hn =>
          -- nobody is left who could take this step
          obtain ⟨hgone, -⟩ := ih hret
          have hworker : worker.phase.isGone = true := hgone worker (by simp [hw])
          rw [WorkerPhase.isGone_next hn] at hworker
          cases hworker

/-- Nobody can move once the emission has returned. -/
theorem State.move_eq_none
    {result : UnitResult}
    (hret : state.returned? = some result)
    (hgone : ∀ worker ∈ state.workers, worker.isGone = true)
    (move : Move) :
    state.move job move = none := by
  cases move with
  | submitter =>
      unfold State.returned? at hret
      split at hret
      · next hs => simp [State.move, State.stepSubmitter, hs]
      · cases hret
  | worker place =>
      simp only [State.move, Option.bind_eq_none_iff]
      intro worker hw
      have hdone : worker.phase.isGone = true := hgone worker (List.mem_of_getElem? hw)
      simp [State.stepWorker, WorkerPhase.next_eq_none_iff.mpr hdone]

/-! ## Failures -/

theorem isCancelled_of_mem_failuresOf
    {sent : List (Nat × UnitResult)}
    {e : GenerateError}
    (h : e ∈ failuresOf sent) :
    e.isCancelled = false := by
  simpa using (List.mem_filter.mp h).2

/-- Results come to a failure exactly if there is one among them that has a cause of its own. -/
theorem collect_eq_error_iff
    {sent : List (Nat × UnitResult)}
    {e : GenerateError} :
    collect sent = .error e ↔
      ∃ first others, failuresOf sent = first :: others ∧ e = .emit first others := by
  unfold collect
  cases hf : failuresOf sent with
  | nil => simp [GenerateError.ofFailures?]
  | cons first others =>
      have hkeep : (others.filter fun e => !e.isCancelled) = others := by
        apply List.filter_eq_self.mpr
        intro other hother
        have hmem : other ∈ failuresOf sent := by simp [hf, hother]
        simp [isCancelled_of_mem_failuresOf hmem]
      simp only [GenerateError.ofFailures?, hkeep, Except.error.injEq, List.cons.injEq]
      constructor
      · rintro rfl
        exact ⟨first, others, ⟨rfl, rfl⟩, rfl⟩
      · rintro ⟨_, _, ⟨rfl, rfl⟩, rfl⟩
        rfl

/-- Once a worker is gone, its failure is among the failures that were sent. -/
theorem failuresOf_reports
    {workers : List Worker}
    (hgone : ∀ worker ∈ workers, worker.isGone = true) :
    failuresOf (workers.filterMap Worker.report?) = workers.filterMap Worker.failure? := by
  induction workers with
  | nil => rfl
  | cons worker rest ih =>
      have hrest := ih fun w hw => hgone w (List.mem_cons_of_mem _ hw)
      have hworker : worker.phase.isGone = true := hgone worker (List.mem_cons_self ..)
      unfold failuresOf at hrest ⊢
      obtain ⟨result, hphase⟩ := WorkerPhase.isGone_iff.mp hworker
      cases result with
      | ok files =>
          simpa [Worker.report?, Worker.failure?, hphase, WorkerPhase.sent?,
            WorkerPhase.result?] using hrest
      | error e =>
          by_cases hc : e.isCancelled
          · simpa [Worker.report?, Worker.failure?, hphase, WorkerPhase.sent?,
              WorkerPhase.result?, hc] using hrest
          · simpa [Worker.report?, Worker.failure?, hphase, WorkerPhase.sent?,
              WorkerPhase.result?, hc] using hrest

/-- When the emission returns, the failures that were sent are those of the workers. -/
theorem Reaches.failuresOf_perm
    (h : Reaches job tree state)
    (hgone : ∀ worker ∈ state.workers, worker.isGone = true) :
    (failuresOf state.sent).Perm (state.workers.filterMap Worker.failure?) := by
  rw [← failuresOf_reports hgone]
  exact (h.sent_perm.filterMap _).filter _

/-- **Failures are accounted for.**  A worker stops early only after another one failed for a
cause of its own.  Every schedule can be continued until the emission returns; then nobody is
left to move, and the emission fails exactly if a worker failed, with the failures of the
workers, each of them once. -/
theorem Reaches.failures_accounted
    (h : Reaches job tree state) :
    (∀ worker ∈ state.workers, worker.phase.result? = some (.error .cancelled) →
      ∃ other ∈ state.workers, other.failure?.isSome = true) ∧
    (∃ schedule after,
      state.run job schedule = some after ∧ after.returned?.isSome = true) ∧
    ∀ result, state.returned? = some result →
      (∀ worker ∈ state.workers, worker.isGone = true) ∧
      (∀ move, state.move job move = none) ∧
      ((∃ first others, result = .error (.emit first others)) ↔
        ∃ worker ∈ state.workers, worker.failure?.isSome = true) ∧
      ∀ e, result = .error e →
        ∃ first others, e = .emit first others ∧
          (first :: others).Perm (state.workers.filterMap Worker.failure?) ∧
          ∀ failure ∈ first :: others, failure ≠ .cancelled := by
  obtain ⟨hraised, hsaw⟩ := h.blame
  refine ⟨?_, h.exists_run_returned, ?_⟩
  · intro worker hw hr
    exact hraised (hsaw worker hw .cancelled hr rfl)
  · intro result hret
    obtain ⟨hgone, rfl⟩ := h.returned hret
    have hperm := h.failuresOf_perm hgone
    refine ⟨hgone, State.move_eq_none hret hgone, ?_, ?_⟩
    · constructor
      · rintro ⟨first, others, herr⟩
        obtain ⟨first, others, hf, -⟩ := collect_eq_error_iff.mp herr
        have hmem : first ∈ state.workers.filterMap Worker.failure? :=
          hperm.mem_iff.mp (by simp [hf])
        obtain ⟨worker, hw, hfail⟩ := List.mem_filterMap.mp hmem
        exact ⟨worker, hw, by rw [hfail]; rfl⟩
      · rintro ⟨worker, hw, hfail⟩
        obtain ⟨e, he⟩ := Option.isSome_iff_exists.mp hfail
        have hmem : e ∈ failuresOf state.sent :=
          hperm.mem_iff.mpr (List.mem_filterMap.mpr ⟨worker, hw, he⟩)
        obtain ⟨first, others, hf⟩ := List.exists_cons_of_ne_nil (List.ne_nil_of_mem hmem)
        exact ⟨first, others, collect_eq_error_iff.mpr ⟨first, others, hf, rfl⟩⟩
    · intro e herr
      obtain ⟨first, others, hf, rfl⟩ := collect_eq_error_iff.mp herr
      refine ⟨first, others, rfl, hf ▸ hperm, ?_⟩
      rintro _ hmem rfl
      have hnot : GenerateError.cancelled.isCancelled = false :=
        isCancelled_of_mem_failuresOf (hf ▸ hmem)
      cases hnot

/-- Two models that cannot be rendered, and two workers. -/
def fieldlessPair : Job where
  emitter := {}
  directory := ⟨"db"⟩
  workers := 2
  models := [⟨"user", "user", "User", "users", "db", "int64", []⟩,
    ⟨"order", "order", "Order", "orders", "db", "int64", []⟩]

/-- Both workers pass the stop flag before one of them raises it. -/
def bothFail : List Move :=
  [.submitter, .submitter, .submitter, .submitter, .worker 0, .worker 1, .worker 0, .worker 1,
    .worker 1, .worker 1, .worker 0, .worker 0, .worker 0, .worker 1, .submitter, .submitter]

theorem bothFail_failures :
    ∃ state,
      Reaches fieldlessPair {} state ∧
        state.returned? = some (.error (.emit (.invalidContext "Order" "no fields")
          [.invalidContext "User" "no fields"])) ∧
        List.Perm [.invalidContext "Order" "no fields", .invalidContext "User" "no fields"]
          (state.workers.filterMap Worker.failure?) := by
  obtain ⟨state, hrun, hret⟩ :
      ∃ state, (State.start fieldlessPair {}).run fieldlessPair bothFail = some state ∧
        state.returned? = some (.error (.emit (.invalidContext "Order" "no fields")
          [.invalidContext "User" "no fields"])) :=
    ⟨_, rfl, rfl⟩
  have hreach : Reaches fieldlessPair {} state := reaches_iff_exists_run.mpr ⟨bothFail, hrun⟩
  obtain ⟨-, -, hend⟩ := hreach.failures_accounted
  obtain ⟨-, -, -, hfail⟩ := hend _ hret
  obtain ⟨first, others, he, hperm, -⟩ := hfail _ rfl
  cases he
  exact ⟨state, hreach, hret, hperm⟩

end Emission
end GormForge
