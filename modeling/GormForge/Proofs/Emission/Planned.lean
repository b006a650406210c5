import GormForge.Proofs.Emission.Results

/-!
# Emissions that go as planned

**Input.**  A plan says what is to be prepared for each file of a model: a text, or nothing
for a file that is left alone.

**Results.**
* `WorkerPhase.Fits.next`: a worker keeps to the plan as long as preparing its files gives
  what was planned and storing them succeeds.
* `Reaches.returned_of_fits`: when all workers keep to the plan, the emission returns the
  planned files.
-/

namespace GormForge

/-- The record of a file for which something was prepared. -/
def ModelFile.planned (directory : Path) (model : GoStruct) (prepared : ModelFile → Option String)
    (file : ModelFile) : EmittedFile :=
  file.record directory model (GeneratedFile.resultOf (prepared file))

namespace Emission

variable {job : Job}
variable {tree : FileTree}
variable {state : State}

/-! ## Workers -/

namespace WorkerPhase

variable {directory : Path}
variable {model : GoStruct}
variable {prepared : ModelFile → Option String}
variable {phase later : WorkerPhase}
variable {after : FileTree}

/-- The files that a worker has behind it. -/
def behind : WorkerPhase → List ModelFile
  | asking _ _ emitted | rendering _ _ emitted | writing _ _ _ emitted =>
      ModelFile.all.take emitted.length
  | ending _ | sending _ | leaving _ | gone _ => ModelFile.all

/-- What was emitted so far goes with the files that are left. -/
def Onward (directory : Path) (model : GoStruct) (prepared : ModelFile → Option String)
    (file : ModelFile) (rest : List ModelFile) (emitted : List EmittedFile) : Prop :=
  ∃ front,
    ModelFile.all = front ++ file :: rest ∧
      emitted = front.map (ModelFile.planned directory model prepared)

/-- A worker keeps to the plan. -/
def Fits (directory : Path) (model : GoStruct) (prepared : ModelFile → Option String) :
    WorkerPhase → Prop
  | asking file rest emitted | rendering file rest emitted =>
      Onward directory model prepared file rest emitted
  | writing file text rest emitted =>
      text = prepared file ∧ Onward directory model prepared file rest emitted
  | ending result | sending result | leaving result | gone result =>
      result = .ok (ModelFile.all.map (ModelFile.planned directory model prepared))

theorem Onward.take_eq
    {file : ModelFile}
    {rest : List ModelFile}
    {emitted : List EmittedFile}
    (h : Onward directory model prepared file rest emitted) :
    ModelFile.all = ModelFile.all.take emitted.length ++ file :: rest := by
  obtain ⟨front, hall, rfl⟩ := h
  rw [hall]
  simp

theorem fits_before
    {file : ModelFile}
    {rest : List ModelFile}
    {emitted : List EmittedFile}
    (h : Onward directory model prepared file rest emitted) :
    (before (emitted ++ [ModelFile.planned directory model prepared file]) rest).Fits
        directory model prepared ∧
      (before (emitted ++ [ModelFile.planned directory model prepared file]) rest).behind =
        ModelFile.all.take emitted.length ++ [file] := by
  have htake := h.take_eq
  obtain ⟨front, hall, rfl⟩ := h
  cases rest with
  | nil =>
      refine ⟨?_, ?_⟩
      · simp [before, Fits, hall]
      · exact htake
  | cons next rest =>
      refine ⟨⟨front ++ [file], by simp [hall], by simp⟩, ?_⟩
      have hlength : (front.map (ModelFile.planned directory model prepared) ++
          [ModelFile.planned directory model prepared file]).length = (front ++ [file]).length := by
        simp
      simp only [before, behind]
      rw [hlength, hall, List.length_map, List.take_left,
        List.append_cons front file (next :: rest), List.take_left]

theorem fits_start :
    (before [] ModelFile.all).Fits directory model prepared ∧
      (before [] ModelFile.all).behind = [] :=
  ⟨⟨[], rfl, rfl⟩, rfl⟩

/-- A worker keeps to the plan as long as preparing gives what was planned and storing
succeeds. -/
theorem Fits.next
    (h : phase.Fits job.directory model prepared)
    (hn : phase.next job model false tree = some (later, after))
    (hprepare : ∀ file rest emitted, phase = rendering file rest emitted →
      job.emitter.prepareFile job.directory model file tree = .ok (prepared file))
    (hstore : ∀ file rest emitted, phase = writing file (prepared file) rest emitted →
      ∃ made, Emitter.storeFile job.directory model file (prepared file) tree =
        (.ok (ModelFile.planned job.directory model prepared file), made)) :
    later.Fits job.directory model prepared ∧ phase.raises = false ∧
      ((after = tree ∧ later.behind = phase.behind) ∨
        ∃ file rest emitted,
          phase = writing file (prepared file) rest emitted ∧
          Emitter.storeFile job.directory model file (prepared file) tree =
            (.ok (ModelFile.planned job.directory model prepared file), after) ∧
          later.behind = phase.behind ++ [file]) := by
  cases step_of_next hn with
  | giveUp hstop => cases hstop
  | goOn => exact ⟨h, rfl, Or.inl ⟨rfl, rfl⟩⟩
  | @refuse file rest emitted cause hfail =>
      rw [hprepare file rest emitted rfl] at hfail
      cases hfail
  | @prepare file rest emitted text htext =>
      rw [hprepare file rest emitted rfl] at htext
      cases htext
      exact ⟨⟨rfl, h⟩, rfl, Or.inl ⟨rfl, rfl⟩⟩
  | @spoil file text rest emitted cause after hfail =>
      obtain ⟨rfl, -⟩ := h
      obtain ⟨made, hmade⟩ := hstore file rest emitted rfl
      rw [hmade] at hfail
      cases hfail
  | @store file text rest emitted stored after hstored =>
      obtain ⟨rfl, honward⟩ := h
      obtain ⟨made, hmade⟩ := hstore file rest emitted rfl
      rw [hmade] at hstored
      cases hstored
      obtain ⟨hfits, hbehind⟩ := fits_before honward
      exact ⟨hfits, rfl, Or.inr ⟨file, rest, emitted, rfl, hmade, hbehind⟩⟩
  | settle =>
      obtain rfl : _ = _ := h
      exact ⟨rfl, rfl, Or.inl ⟨rfl, rfl⟩⟩
  | send | leave => exact ⟨h, rfl, Or.inl ⟨rfl, rfl⟩⟩

end WorkerPhase

/-! ## States -/

/-- All workers keep to a plan. -/
structure State.Fits (job : Job) (plan : GoStruct → ModelFile → Option String) (state : State) :
    Prop where
  running : state.stopped = false
  workers : ∀ worker ∈ state.workers,
    worker.phase.Fits job.directory worker.model (plan worker.model)

theorem State.fits_start
    (job : Job)
    (plan : GoStruct → ModelFile → Option String)
    (tree : FileTree) :
    (State.start job tree).Fits job plan where
  running := rfl
  workers := by simp [State.start]

/-- A worker that has just started keeps to every plan. -/
theorem State.Fits.begin
    {plan : GoStruct → ModelFile → Option String}
    (h : state.Fits job plan)
    (model : GoStruct)
    (index : Nat)
    (submitter : SubmitterPhase) :
    State.Fits job plan { state with
      submitter := submitter
      workers := state.workers ++ [{ model := model, index := index }] } where
  running := h.running
  workers := by simpa [or_imp, forall_and] using ⟨h.workers, WorkerPhase.fits_start.1⟩

/-- Workers keep to a plan when the one that takes a step does and does not raise the stop flag. -/
theorem State.Fits.work
    {plan : GoStruct → ModelFile → Option String}
    {front back : List Worker}
    {worker : Worker}
    {later : WorkerPhase}
    {after : FileTree}
    {pool : Pool}
    {sent : List (Nat × UnitResult)}
    (h : state.Fits job plan)
    (hw : state.workers = front ++ worker :: back)
    (hquiet : worker.phase.raises = false)
    (hlater : later.Fits job.directory worker.model (plan worker.model)) :
    State.Fits job plan { state with
      tree := after
      pool := pool
      stopped := state.stopped || worker.phase.raises
      workers := front ++ { worker with phase := later } :: back
      sent := sent } where
  running := by simp [h.running, hquiet]
  workers := by
    have hall := h.workers
    rw [hw] at hall
    exact forall_mem_middle_iff.mpr ⟨hlater, (forall_mem_middle_iff.mp hall).2⟩

/-- When all workers keep to the plan, the emission returns the planned files. -/
theorem Reaches.returned_of_fits
    {plan : GoStruct → ModelFile → Option String}
    (h : Reaches job tree state)
    (hfits : state.Fits job plan)
    {result : UnitResult}
    (hret : state.returned? = some result) :
    state.workers.map Worker.entry = job.models.zipIdx ∧
      (∀ worker ∈ state.workers, worker.phase.behind = ModelFile.all) ∧
      result = .ok (job.models.flatMap fun model =>
        ModelFile.all.map (ModelFile.planned job.directory model (plan model))) := by
  obtain ⟨hgone, hcollect⟩ := h.returned hret
  have hphase : ∀ worker ∈ state.workers, worker.phase = .gone (.ok (ModelFile.all.map
      (ModelFile.planned job.directory worker.model (plan worker.model)))) := by
    intro worker hw
    have hfit := hfits.workers worker hw
    obtain ⟨result, hphase⟩ := WorkerPhase.isGone_iff.mp (hgone worker hw)
    rw [hphase] at hfit ⊢
    exact congrArg _ hfit
  cases result with
  | error e =>
      obtain ⟨first, others, hf, -⟩ := collect_eq_error_iff.mp hcollect.symm
      have hmem : first ∈ state.workers.filterMap Worker.failure? :=
        (h.failuresOf_perm hgone).mem_iff.mp (by simp [hf])
      obtain ⟨worker, hw, hfail⟩ := List.mem_filterMap.mp hmem
      have hresult := (Worker.failure?_eq_some_iff.mp hfail).1
      rw [hphase worker hw] at hresult
      cases hresult
  | ok files =>
      obtain ⟨hentries, -, rfl⟩ := h.of_returned_ok hret
      refine ⟨hentries, fun worker hw => by rw [hphase worker hw]; rfl, ?_⟩
      rw [← map_model_of_entries hentries, List.flatMap_map, List.flatMap_def]
      congr 2
      apply List.map_congr_left
      intro worker hw
      rw [Worker.files, hphase worker hw]
      rfl

end Emission
end GormForge
