import GormForge.Proofs.Emission.Accounting

/-!
# Results of an emission

The files with which an emission returns.

**Results.**
* `filesOf_eq`: files come in the order of their models, whatever the order in which the
  results were sent.
* `Reaches.map_target`: an emission that returns files returns the two files of every model.
-/

namespace GormForge
namespace Emission

variable {job : Job}
variable {tree : FileTree}
variable {state : State}

/-! ## Order -/

/-- Results of models, each with the place of its model. -/
def numbered (done : List (List EmittedFile)) : List (Nat × UnitResult) :=
  done.zipIdx.map fun entry => (entry.2, .ok entry.1)

theorem pairwise_numbered
    (done : List (List EmittedFile)) :
    (numbered done).Pairwise fun a b => a.1 < b.1 := by
  unfold numbered
  rw [List.pairwise_map]
  have hrange : (done.zipIdx.map Prod.snd).Pairwise (· < ·) := by
    rw [List.zipIdx_map_snd]
    exact List.pairwise_lt_range'
  exact List.pairwise_map.mp hrange

theorem mem_numbered
    {done : List (List EmittedFile)}
    {report : Nat × UnitResult} :
    report ∈ numbered done ↔ ∃ files, done[report.1]? = some files ∧ report.2 = .ok files := by
  unfold numbered
  rw [List.mem_map]
  constructor
  · rintro ⟨⟨files, index⟩, hmem, rfl⟩
    exact ⟨files, List.mk_mem_zipIdx_iff_getElem?.mp hmem, rfl⟩
  · rintro ⟨files, hfiles, hok⟩
    exact ⟨(files, report.1), List.mk_mem_zipIdx_iff_getElem?.mpr hfiles,
      Prod.ext rfl hok.symm⟩

theorem failuresOf_numbered
    (done : List (List EmittedFile)) :
    failuresOf (numbered done) = [] := by
  simp [failuresOf, numbered, List.filterMap_map]

theorem failuresOf_perm
    {sent other : List (Nat × UnitResult)}
    (h : sent.Perm other) :
    (failuresOf sent).Perm (failuresOf other) :=
  (h.filterMap _).filter _

/-- Files come in the order of their models. -/
theorem filesOf_eq
    {sent : List (Nat × UnitResult)}
    {done : List (List EmittedFile)}
    (h : sent.Perm (numbered done)) :
    filesOf sent = done.flatten := by
  have hperm := (List.mergeSort_perm sent fun a b => decide (a.1 ≤ b.1)).trans h
  have hmerge : sent.mergeSort (fun a b => a.1 ≤ b.1) = numbered done := by
    refine List.Perm.eq_of_pairwise ?_ ?_ ((pairwise_numbered done).imp Nat.le_of_lt) hperm
    · -- results of the same model are the same
      intro a b ha hb hab hba
      obtain ⟨_, hfiles, hok⟩ := mem_numbered.mp (hperm.mem_iff.mp ha)
      obtain ⟨_, hfiles', hok'⟩ := mem_numbered.mp hb
      have hindex : a.1 = b.1 := Nat.le_antisymm hab hba
      rw [hindex, hfiles'] at hfiles
      cases hfiles
      exact Prod.ext hindex (hok.trans hok'.symm)
    · refine (List.pairwise_mergeSort ?_ ?_ sent).imp fun hab => of_decide_eq_true hab
      · intro a b c hab hbc
        simp only [decide_eq_true_eq] at hab hbc ⊢
        omega
      · intro a b
        simp only [Bool.or_eq_true, decide_eq_true_eq]
        omega
  unfold filesOf
  rw [hmerge]
  unfold numbered
  rw [List.flatMap_map, ← List.flatMap_id, ← List.zipIdx_map_fst 0 done, List.flatMap_map]
  simp

/-- Results without a failure come to the files in order. -/
theorem collect_eq_ok
    {sent : List (Nat × UnitResult)}
    {done : List (List EmittedFile)}
    (h : sent.Perm (numbered done)) :
    collect sent = .ok done.flatten := by
  have hnone : failuresOf sent = [] := by
    have hperm := failuresOf_perm h
    rw [failuresOf_numbered] at hperm
    exact hperm.eq_nil
  simp [collect, hnone, GenerateError.ofFailures?, filesOf_eq h]

/-! ## Files of a worker -/

/-- The files that a worker came to. -/
def Worker.files (worker : Worker) : List EmittedFile :=
  match worker.phase.result? with
  | some (.ok files) => files
  | _ => []

/-- The files that a worker has emitted and those that are left are the two of its model. -/
def WorkerPhase.Lists (directory : Path) (model : GoStruct) : WorkerPhase → Prop
  | asking file rest emitted | rendering file rest emitted | writing file _ rest emitted =>
      emitted.map EmittedFile.target ++ (file :: rest).map (ModelFile.target directory model) =
        ModelFile.all.map (ModelFile.target directory model)
  | ending result | sending result | leaving result | gone result =>
      ∀ files, result = .ok files →
        files.map EmittedFile.target = ModelFile.all.map (ModelFile.target directory model)

theorem WorkerPhase.Lists.next
    {model : GoStruct}
    {stopped : Bool}
    {start after : FileTree}
    {phase later : WorkerPhase}
    (h : phase.Lists job.directory model)
    (hn : phase.next job model stopped start = some (later, after)) :
    later.Lists job.directory model := by
  cases step_of_next hn with
  | giveUp | refuse | spoil =>
      intro files hfiles
      cases hfiles
  | goOn | prepare | settle | send | leave => exact h
  | @store file prepared rest emitted stored after hstore =>
      obtain ⟨result, -, rfl⟩ := Emitter.storeFile_eq_ok_iff.mp hstore
      cases rest with
      | nil =>
          intro files hfiles
          cases hfiles
          simpa [Lists] using h
      | cons other rest => simpa [Lists, before] using h

theorem Reaches.lists
    (h : Reaches job tree state) :
    ∀ worker ∈ state.workers, worker.phase.Lists job.directory worker.model := by
  induction h with
  | start => simp [State.start]
  | move move _ hmove ih =>
      exact (State.step_of_move hmove).forall_workers ih (fun _ _ => rfl)
        fun worker hw _ hn _ => (ih worker hw).next hn

/-! ## Success -/

/-- The workers stand in the order of their models. -/
theorem Reaches.getElem?_workers
    (h : Reaches job tree state)
    {place : Nat}
    {worker : Worker}
    (hw : state.workers[place]? = some worker) :
    worker.index = place ∧ job.models[place]? = some worker.model := by
  obtain ⟨left, hentries, -⟩ := h.entries
  obtain ⟨hlt, -⟩ := List.getElem?_eq_some_iff.mp hw
  have hentry : job.models.zipIdx[place]? = some worker.entry := by
    rw [← hentries, List.getElem?_append_left (by simpa using hlt), List.getElem?_map, hw]
    rfl
  rw [List.getElem?_zipIdx] at hentry
  obtain ⟨model, hmodel, heq⟩ := Option.map_eq_some_iff.mp hentry
  simp only [Worker.entry, Prod.mk.injEq] at heq
  obtain ⟨rfl, hindex⟩ := heq
  exact ⟨by omega, hmodel⟩

/-- Once all workers have come to files, their reports are numbered in order. -/
theorem Reaches.reports_eq
    (h : Reaches job tree state)
    (hdone : ∀ worker ∈ state.workers, worker.phase = .gone (.ok worker.files)) :
    state.workers.filterMap Worker.report? = numbered (state.workers.map Worker.files) := by
  have hreports : state.workers.filterMap Worker.report? =
      state.workers.map fun worker => (worker.index, .ok worker.files) := by
    rw [← List.filterMap_eq_map]
    apply List.filterMap_congr
    intro worker hw
    simp [Worker.report?, hdone worker hw, WorkerPhase.sent?]
  rw [hreports]
  apply List.ext_getElem?
  intro place
  unfold numbered
  rw [List.getElem?_map, List.getElem?_map, List.getElem?_zipIdx, List.getElem?_map]
  cases hw : state.workers[place]? with
  | none => rfl
  | some worker => simp [(h.getElem?_workers hw).1]

/-- No worker of an emission that returns files has failed for a cause of its own. -/
theorem Reaches.failure?_of_returned_ok
    (h : Reaches job tree state)
    {files : List EmittedFile}
    (hret : state.returned? = some (.ok files)) :
    ∀ worker ∈ state.workers, worker.failure? = none := by
  obtain ⟨hgone, hcollect⟩ := h.returned hret
  intro worker hw
  by_contra hfail
  obtain ⟨e, he⟩ := Option.ne_none_iff_exists'.mp hfail
  have hmem : e ∈ failuresOf state.sent :=
    (h.failuresOf_perm hgone).mem_iff.mpr (List.mem_filterMap.mpr ⟨worker, hw, he⟩)
  obtain ⟨first, others, hf⟩ := List.exists_cons_of_ne_nil (List.ne_nil_of_mem hmem)
  rw [collect_eq_error_iff.mpr ⟨first, others, hf, rfl⟩] at hcollect
  cases hcollect

/-- Nobody has raised the stop flag of an emission that returns files. -/
theorem Reaches.stopped_of_returned_ok
    (h : Reaches job tree state)
    {files : List EmittedFile}
    (hret : state.returned? = some (.ok files)) :
    state.stopped = false := by
  by_contra hstop
  obtain ⟨worker, hw, hfail⟩ := h.blame.1 (by simpa using hstop)
  rw [h.failure?_of_returned_ok hret worker hw] at hfail
  cases hfail

/-- An emission that returns files had a worker for every model, and none of them failed. -/
theorem Reaches.of_returned_ok
    (h : Reaches job tree state)
    {files : List EmittedFile}
    (hret : state.returned? = some (.ok files)) :
    state.workers.map Worker.entry = job.models.zipIdx ∧
      (∀ worker ∈ state.workers, worker.phase = .gone (.ok worker.files)) ∧
      files = (state.workers.map Worker.files).flatten := by
  obtain ⟨hgone, hcollect⟩ := h.returned hret
  have hopen := h.stopped_of_returned_ok hret
  have hdone : ∀ worker ∈ state.workers, worker.phase = .gone (.ok worker.files) := by
    intro worker hw
    obtain ⟨result, hphase⟩ := WorkerPhase.isGone_iff.mp (hgone worker hw)
    cases result with
    | ok found => simp [Worker.files, hphase, WorkerPhase.result?]
    | error e =>
        have hr : worker.phase.result? = some (.error e) := by simp [hphase, WorkerPhase.result?]
        by_cases hc : e.isCancelled = true
        · rw [h.blame.2 worker hw e hr hc] at hopen
          cases hopen
        · have hfail := Worker.failure?_eq_some_iff.mpr ⟨hr, by simpa using hc⟩
          rw [h.failure?_of_returned_ok hret worker hw] at hfail
          cases hfail
  refine ⟨?_, hdone, ?_⟩
  · obtain ⟨left, hentries, hleft⟩ := h.entries
    unfold State.returned? at hret
    split at hret
    · next hs =>
        rw [hs, hopen] at hleft
        rcases hleft with rfl | hstop
        · simpa using hentries
        · cases hstop
    · cases hret
  · have hperm := h.sent_perm
    rw [h.reports_eq hdone] at hperm
    rw [collect_eq_ok hperm] at hcollect
    cases hcollect
    rfl

theorem map_model_of_entries
    (h : state.workers.map Worker.entry = job.models.zipIdx) :
    state.workers.map (·.model) = job.models := by
  have hfst := congrArg (List.map Prod.fst) h
  simpa [Worker.entry, Function.comp_def, List.zipIdx_map_fst] using hfst

/-- An emission that returns files returns the two files of every model, in order. -/
theorem Reaches.map_target
    (h : Reaches job tree state)
    {files : List EmittedFile}
    (hret : state.returned? = some (.ok files)) :
    files.map EmittedFile.target =
      job.models.flatMap fun model =>
        ModelFile.all.map (ModelFile.target job.directory model) := by
  obtain ⟨hentries, hdone, rfl⟩ := h.of_returned_ok hret
  rw [← map_model_of_entries hentries, List.flatMap_map, List.map_flatten, List.map_map,
    List.flatMap_def]
  congr 1
  apply List.map_congr_left
  intro worker hw
  have hlists := h.lists worker hw
  rw [hdone worker hw] at hlists
  exact hlists worker.files rfl

end Emission
end GormForge
