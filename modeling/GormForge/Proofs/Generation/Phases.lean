import GormForge.Proofs.Generation.Steps

/-!
# Phases of a schedule

How the schedule of a run that ends falls into the moves of its emission and the moves after it.

**Algorithm.**  As long as the emission has not returned, only the emission can move, and after
it only the run itself.  So the moves after the emission determine nothing: they patch the
provider files one after the other.

**Results.**
* `RunState.exists_emission_run`: a run that ends lets the emission move until it has returned.
* `Begun.exists_run`: every emission that returns is part of a run.
* `RunState.ended_of_settle`: what a run comes to after an emission that succeeded.
-/

namespace GormForge
namespace Generation

open FileTree

variable {job : GenerationJob}
variable {tree after : FileTree}
variable {directory : Path}
variable {files : List EmittedFile}
variable {state next : RunState}
variable {schedule : List RunMove}
variable {emission : Emission.State}
variable {result : Except GenerateError GenerationReport}

theorem RunState.run_cons_eq_some_iff
    {move : RunMove} :
    state.run job (move :: schedule) = some next ↔
      ∃ middle, Generation.step job state move = some middle ∧
        middle.run job schedule = some next := by
  simp only [RunState.run, List.foldlM_cons, Option.bind_eq_bind, Option.bind_eq_some_iff]

theorem Reaches.run
    (h : Reaches job tree state)
    (hrun : state.run job schedule = some next) :
    Reaches job tree next := by
  induction schedule generalizing state with
  | nil =>
      cases hrun
      exact h
  | cons move rest ih =>
      obtain ⟨middle, hstep, hrest⟩ := RunState.run_cons_eq_some_iff.mp hrun
      exact ih (h.step move hstep) hrest

/-- A run that is over makes no more moves. -/
theorem RunState.run_ended
    (h : (RunState.ended result tree).run job schedule = some next) :
    schedule = [] ∧ next = .ended result tree := by
  cases schedule with
  | nil =>
      cases h
      exact ⟨rfl, rfl⟩
  | cons move rest =>
      obtain ⟨middle, hstep, -⟩ := RunState.run_cons_eq_some_iff.mp h
      cases step_eq_some_iff.mp hstep

/-! ## The emission -/

/-- A run that ends lets the emission move until it has returned. -/
theorem RunState.exists_emission_run
    (h : (RunState.emitting directory emission).run job schedule = some (.ended result after)) :
    ∃ moves last returned back,
      schedule = moves.map .emission ++ .next :: back ∧
        emission.run (job.emission directory) moves = some last ∧
        last.returned? = some returned ∧
        (settle job directory last.tree returned).run job back = some (.ended result after) := by
  induction schedule generalizing emission with
  | nil => cases h
  | cons move rest ih =>
      obtain ⟨middle, hstep, hrest⟩ := RunState.run_cons_eq_some_iff.mp h
      cases step_eq_some_iff.mp hstep with
      | emission hmove =>
          obtain ⟨moves, last, returned, back, rfl, hrun, hret, hend⟩ := ih hrest
          exact ⟨_ :: moves, last, returned, back, rfl,
            Emission.State.run_cons_eq_some_iff.mpr ⟨_, hmove, hrun⟩, hret, hend⟩
      | settle hret => exact ⟨[], emission, _, rest, rfl, rfl, hret, hrest⟩

/-- The moves of an emission come after the first step of a run. -/
theorem Begun.run_emission
    {made : FileTree}
    {moves : List Emission.Move}
    (h : Begun job tree directory made)
    (hrun : (Emission.State.start (job.emission directory) made).run (job.emission directory)
      moves = some emission) :
    (RunState.starting tree).run job (.next :: moves.map .emission) =
      some (.emitting directory emission) := by
  refine RunState.run_cons_eq_some_iff.mpr ⟨_, rfl, ?_⟩
  rw [h.begin_eq]
  exact Generation.run_emission hrun

/-- An emission that can return the way it does is part of a run. -/
theorem Begun.exists_run
    {made last : FileTree}
    {returned : Emission.UnitResult}
    (h : Begun job tree directory made)
    (hemission : Emission.Returns (job.emission directory) made returned last) :
    ∃ front emission,
      (RunState.starting tree).run job front = some (.emitting directory emission) ∧
        emission.returned? = some returned ∧
        emission.tree = last := by
  obtain ⟨emission, hreach, hret, rfl⟩ := hemission
  obtain ⟨moves, hmoves⟩ := Emission.reaches_iff_exists_run.mp hreach
  exact ⟨.next :: moves.map .emission, emission, h.run_emission hmoves, hret, rfl⟩

/-! ## After the emission -/

/-- A run that patches its provider files and ends patches the next one first. -/
theorem RunState.exists_run_wireNext
    {left : List Path}
    {outcomes : List PatchOutcome}
    (h : (RunState.wiring files left outcomes tree).run job schedule =
      some (.ended result after)) :
    ∃ rest, (wireNext job files outcomes tree left).run job rest = some (.ended result after) := by
  cases schedule with
  | nil => cases h
  | cons move rest =>
      obtain ⟨middle, hstep, hrest⟩ := RunState.run_cons_eq_some_iff.mp h
      cases step_eq_some_iff.mp hstep with
      | wire => exact ⟨rest, hrest⟩

theorem RunState.ended_of_wiring
    {left : List Path}
    {outcomes : List PatchOutcome}
    (h : (RunState.wiring files left outcomes tree).run job schedule =
      some (.ended result after)) :
    RunState.ended result after =
      endOf job files outcomes (Providers.patchFiles job.insertions left tree) := by
  induction left generalizing outcomes tree schedule with
  | nil =>
      rw [endOf_patchFiles_nil]
      obtain ⟨rest, hrest⟩ := RunState.exists_run_wireNext h
      exact (RunState.run_ended hrest).2
  | cons path left ih =>
      obtain ⟨rest, hrest⟩ := RunState.exists_run_wireNext h
      rcases endOf_patchFiles_cons job files outcomes path left tree with
        ⟨final, last, hwire, hend⟩ | ⟨more, last, hwire, hend⟩
      · rw [hwire] at hrest
        rw [hend]
        exact (RunState.run_ended hrest).2
      · rw [hwire] at hrest
        rw [hend]
        exact ih hrest

/-- What a run comes to after an emission that succeeded: its provider files are patched, if it
wires. -/
theorem RunState.ended_of_settle
    (h : (settle job directory tree (.ok files)).run job schedule = some (.ended result after)) :
    RunState.ended result after =
      if job.settings.wire then endOf job files [] (Providers.patch directory job.insertions tree)
      else .ended (.ok (job.reportWith files)) tree := by
  cases hwire : job.settings.wire with
  | true =>
      rw [if_pos rfl, Providers.patch_of_candidates]
      cases hcandidates : Providers.candidates tree directory with
      | error e =>
          simp only [settle, hwire, hcandidates, if_true] at h
          exact (RunState.run_ended h).2
      | ok paths =>
          simp only [settle, hwire, hcandidates, if_true] at h
          exact RunState.ended_of_wiring h
  | false =>
      simp only [settle, hwire, Bool.false_eq_true, if_false] at h
      exact (RunState.run_ended h).2

/-- After such an emission a run does not fail. -/
theorem RunState.isOk_of_settle
    (h : (settle job directory tree (.ok files)).run job schedule = some (.ended result after)) :
    ∃ report, result = .ok report := by
  have hend := RunState.ended_of_settle h
  split at hend
  · rcases hpatch : Providers.patch directory job.insertions tree with ⟨e | outcomes, last⟩ <;>
      rw [hpatch] at hend <;>
      cases hend <;>
      exact ⟨_, rfl⟩
  · cases hend
    exact ⟨_, rfl⟩

/-- A run that fails from its emission on ends with the emission. -/
theorem RunState.exists_failed_emission
    {e : GenerateError}
    (h : (RunState.emitting directory emission).run job schedule =
      some (.ended (.error e) after)) :
    ∃ moves last,
      schedule = moves.map .emission ++ [.next] ∧
        emission.run (job.emission directory) moves = some last ∧
        last.tree = after := by
  obtain ⟨moves, last, returned, back, rfl, hrun, -, hend⟩ := RunState.exists_emission_run h
  cases returned with
  | ok files =>
      obtain ⟨report, hreport⟩ := RunState.isOk_of_settle hend
      cases hreport
  | error e' =>
      obtain ⟨rfl, hsame⟩ := RunState.run_ended hend
      cases hsame
      exact ⟨moves, last, rfl, hrun, rfl⟩

end Generation
end GormForge
