import GormForge.Proofs.Emission.InOrder
import GormForge.Proofs.Generation.Models
import GormForge.Proofs.Wiring.Providers

/-!
# Steps of a generation run

What every schedule of a run comes to.

**Results.**
* `step_eq_some_iff`: a move is one of four kinds of steps.
* `reaches_ended_iff`: a run ends the way its parts end, one after the other.
* `Reaches.exists_run_ended`: every schedule can be continued until the run ends.
* `reaches_execute`: one of the schedules is the run without any concurrency.
-/

namespace GormForge
namespace Generation

open FileTree

variable {job : GenerationJob}
variable {tree made last after : FileTree}
variable {directory : Path}
variable {files : List EmittedFile}
variable {state : RunState}
variable {result : Except GenerateError GenerationReport}

/-! ## Parts -/

/-- A run that has made its output directory. -/
structure Begun (job : GenerationJob) (tree : FileTree) (directory : Path) (made : FileTree) :
    Prop where
  models : job.collected.models ≠ []
  named : job.settings.outputDirectory tree.workingDirectory = .ok directory
  created : createDirectories directory tree = (.ok (), made)

/-- What a run comes to when it does one thing after the other. -/
inductive Ends (job : GenerationJob) (tree : FileTree) :
    Except GenerateError GenerationReport → FileTree → Prop
  | nothing
      (hmodels : job.collected.models = []) :
      Ends job tree (.ok job.collected.report) tree
  | noDirectory
      {e : GenerateError}
      (hmodels : job.collected.models ≠ [])
      (hdirectory : job.settings.outputDirectory tree.workingDirectory = .error e) :
      Ends job tree (.error e) tree
  | notMade
      {directory : Path} {made : FileTree} {e : IoError}
      (hmodels : job.collected.models ≠ [])
      (hdirectory : job.settings.outputDirectory tree.workingDirectory = .ok directory)
      (hmade : createDirectories directory tree = (.error e, made)) :
      Ends job tree (.error (.createDirectory directory)) made
  | failed
      {directory : Path} {made last : FileTree} {e : GenerateError}
      (hbegun : Begun job tree directory made)
      (hemission : Emission.Returns (job.emission directory) made (.error e) last) :
      Ends job tree (.error e) last
  | emitted
      {directory : Path} {made last : FileTree} {files : List EmittedFile}
      (hbegun : Begun job tree directory made)
      (hemission : Emission.Returns (job.emission directory) made (.ok files) last)
      (hwire : job.settings.wire = false) :
      Ends job tree (.ok (job.reportWith files)) last
  | wired
      {directory : Path} {made last after : FileTree} {files : List EmittedFile}
      {outcomes : List PatchOutcome}
      (hbegun : Begun job tree directory made)
      (hemission : Emission.Returns (job.emission directory) made (.ok files) last)
      (hwire : job.settings.wire = true)
      (hpatch : Providers.patch directory job.insertions last = (.ok outcomes, after)) :
      Ends job tree (.ok (Generation.wired (job.reportWith files) job.insertions outcomes)) after
  | unwired
      {directory : Path} {made last after : FileTree} {files : List EmittedFile} {e : WireError}
      (hbegun : Begun job tree directory made)
      (hemission : Emission.Returns (job.emission directory) made (.ok files) last)
      (hwire : job.settings.wire = true)
      (hpatch : Providers.patch directory job.insertions last = (.error e, after)) :
      Ends job tree (.ok (Generation.unwired (job.reportWith files) e)) after

/-- Where a run stands, and how it came there. -/
def RunState.Follows (job : GenerationJob) (tree : FileTree) : RunState → Prop
  | starting seen => seen = tree
  | emitting directory emission =>
      ∃ made,
        Begun job tree directory made ∧
          Emission.Reaches (job.emission directory) made emission
  | wiring files left outcomes seen =>
      ∃ directory made last front,
        Begun job tree directory made ∧
          Emission.Returns (job.emission directory) made (.ok files) last ∧
          job.settings.wire = true ∧
          Providers.candidates last directory = .ok (front ++ left) ∧
          Providers.patchFiles job.insertions front last = (.ok outcomes, seen)
  | ended result seen => Ends job tree result seen

/-! ## Steps -/

/-- The steps that a run can take. -/
inductive RunStep (job : GenerationJob) : RunState → RunMove → RunState → Prop
  | begin {tree : FileTree} :
      RunStep job (.starting tree) .next (Generation.begin job tree)
  | emission
      {directory : Path} {emission after : Emission.State} {move : Emission.Move}
      (hmove : emission.move (job.emission directory) move = some after) :
      RunStep job (.emitting directory emission) (.emission move) (.emitting directory after)
  | settle
      {directory : Path} {emission : Emission.State} {result : Emission.UnitResult}
      (hret : emission.returned? = some result) :
      RunStep job (.emitting directory emission) .next
        (Generation.settle job directory emission.tree result)
  | wire
      {files : List EmittedFile} {left : List Path} {outcomes : List PatchOutcome}
      {tree : FileTree} :
      RunStep job (.wiring files left outcomes tree) .next
        (wireNext job files outcomes tree left)

/-- A move is possible exactly if it is one of those steps. -/
theorem step_eq_some_iff
    {move : RunMove}
    {next : RunState} :
    Generation.step job state move = some next ↔ RunStep job state move next := by
  constructor
  · intro h
    cases state with
    | starting tree =>
        cases move with
        | next =>
            cases h
            exact .begin
        | emission move => cases h
    | emitting directory emission =>
        cases move with
        | next =>
            obtain ⟨result, hret, rfl⟩ := Option.map_eq_some_iff.mp h
            exact .settle hret
        | emission move =>
            obtain ⟨after, hmove, rfl⟩ := Option.map_eq_some_iff.mp h
            exact .emission hmove
    | wiring files left outcomes tree =>
        cases move with
        | next =>
            cases h
            exact .wire
        | emission move => cases h
    | ended result tree => cases move <;> cases h
  · intro h
    cases h with
    | begin | wire => rfl
    | emission hmove => simp [Generation.step, hmove]
    | settle hret => simp [Generation.step, hret]

theorem follows_begin
    (job : GenerationJob)
    (tree : FileTree) :
    (begin job tree).Follows job tree := by
  unfold begin
  split
  · next hmodels => exact .nothing (List.isEmpty_iff.mp hmodels)
  · next hmodels =>
      have hne : job.collected.models ≠ [] := fun hnil => hmodels (List.isEmpty_iff.mpr hnil)
      split
      · next e hdirectory => exact .noDirectory hne hdirectory
      · next directory hdirectory =>
          split
          · next hmade => exact .notMade hne hdirectory hmade
          · next made hmade => exact ⟨made, ⟨hne, hdirectory, hmade⟩, .start⟩

theorem follows_settle
    {result : Emission.UnitResult}
    (hbegun : Begun job tree directory made)
    (hemission : Emission.Returns (job.emission directory) made result last) :
    (settle job directory last result).Follows job tree := by
  unfold settle
  split
  · exact .failed hbegun hemission
  · next files =>
      split
      · next hwire =>
          split
          · next e hcandidates =>
              refine .unwired hbegun hemission hwire ?_
              rw [Providers.patch_of_candidates, hcandidates]
          · next paths hcandidates =>
              exact ⟨directory, made, last, [], hbegun, hemission, hwire, hcandidates, rfl⟩
      · next hwire => exact .emitted hbegun hemission (by simpa using hwire)

theorem follows_wireNext
    {left : List Path}
    {outcomes : List PatchOutcome}
    (h : (RunState.wiring files left outcomes after).Follows job tree) :
    (wireNext job files outcomes after left).Follows job tree := by
  obtain ⟨directory, made, last, front, hbegun, hemission, hwire, hcandidates, hpatch⟩ := h
  cases left with
  | nil =>
      rw [List.append_nil] at hcandidates
      refine .wired hbegun hemission hwire ?_
      rw [Providers.patch_of_candidates, hcandidates]
      exact hpatch
  | cons path rest =>
      simp only [wireNext]
      rcases hfile : Providers.patchFile job.insertions path after with ⟨e | more, next⟩
      · refine .unwired hbegun hemission hwire ?_
        rw [Providers.patch_of_candidates, hcandidates]
        simp only
        rw [Providers.patchFiles_append (path :: rest) hpatch, Providers.patchFiles_cons, hfile]
      · refine ⟨directory, made, last, front ++ [path], hbegun, hemission, hwire, ?_, ?_⟩
        · rw [hcandidates]
          simp
        · rw [Providers.patchFiles_append [path] hpatch, Providers.patchFiles_cons, hfile]
          simp [Providers.patchFiles, pure_apply]

theorem Reaches.follows
    (h : Reaches job tree state) :
    state.Follows job tree := by
  induction h with
  | start => rfl
  | step move _ hstep ih =>
      cases step_eq_some_iff.mp hstep with
      | @begin seen =>
          obtain rfl : seen = tree := ih
          exact follows_begin job seen
      | emission hmove =>
          obtain ⟨made, hbegun, hreach⟩ := ih
          exact ⟨made, hbegun, hreach.move _ hmove⟩
      | settle hret =>
          obtain ⟨made, hbegun, hreach⟩ := ih
          exact follows_settle hbegun ⟨_, hreach, hret, rfl⟩
      | wire => exact follows_wireNext ih

/-! ## Ends -/

theorem Reaches.emission
    {emission : Emission.State}
    (h : Reaches job tree (.emitting directory (.start (job.emission directory) made)))
    (hreach : Emission.Reaches (job.emission directory) made emission) :
    Reaches job tree (.emitting directory emission) := by
  induction hreach with
  | start => exact h
  | move move _ hmove ih => exact ih.step (.emission move) (step_eq_some_iff.mpr (.emission hmove))

theorem Begun.begin_eq
    (h : Begun job tree directory made) :
    begin job tree = .emitting directory (.start (job.emission directory) made) := by
  have hne : job.collected.models.isEmpty = false := by simpa using h.models
  simp [begin, hne, h.named, h.created]

theorem Begun.reaches
    (h : Begun job tree directory made) :
    Reaches job tree (.emitting directory (.start (job.emission directory) made)) := by
  rw [← h.begin_eq]
  exact Reaches.start.step .next rfl

theorem Begun.reaches_settle
    (h : Begun job tree directory made)
    {result : Emission.UnitResult}
    (hemission : Emission.Returns (job.emission directory) made result last) :
    Reaches job tree (settle job directory last result) := by
  obtain ⟨emission, hreach, hret, rfl⟩ := hemission
  exact (h.reaches.emission hreach).step .next (step_eq_some_iff.mpr (.settle hret))

/-- The end of a run whose provider files were patched. -/
def endOf (job : GenerationJob) (files : List EmittedFile) (outcomes : List PatchOutcome) :
    Except WireError (List PatchOutcome) × FileTree → RunState
  | (.error e, tree) => .ended (.ok (unwired (job.reportWith files) e)) tree
  | (.ok more, tree) =>
      .ended (.ok (Generation.wired (job.reportWith files) job.insertions (outcomes ++ more))) tree

theorem endOf_patchFiles_nil
    (job : GenerationJob)
    (files : List EmittedFile)
    (outcomes : List PatchOutcome)
    (tree : FileTree) :
    endOf job files outcomes (Providers.patchFiles job.insertions [] tree) =
      wireNext job files outcomes tree [] := by
  simp [Providers.patchFiles, pure_apply, endOf, wireNext]

/-- Patching the next provider file leads to an end, or the end is that of patching the others. -/
theorem endOf_patchFiles_cons
    (job : GenerationJob)
    (files : List EmittedFile)
    (outcomes : List PatchOutcome)
    (path : Path)
    (left : List Path)
    (tree : FileTree) :
    (∃ result after,
      wireNext job files outcomes tree (path :: left) = .ended result after ∧
        endOf job files outcomes (Providers.patchFiles job.insertions (path :: left) tree) =
          .ended result after) ∨
      ∃ more after,
        wireNext job files outcomes tree (path :: left) =
            .wiring files left (outcomes ++ more) after ∧
          endOf job files outcomes (Providers.patchFiles job.insertions (path :: left) tree) =
            endOf job files (outcomes ++ more)
              (Providers.patchFiles job.insertions left after) := by
  rw [Providers.patchFiles_cons]
  rcases hfile : Providers.patchFile job.insertions path tree with ⟨e | more, after⟩
  · exact Or.inl ⟨_, _, by simp only [wireNext, hfile], rfl⟩
  · refine Or.inr ⟨more, after, by simp only [wireNext, hfile], ?_⟩
    simp only
    rcases Providers.patchFiles job.insertions left after with ⟨e | others, last⟩
    · rfl
    · simp [endOf]

theorem Reaches.wiring
    {left : List Path}
    {outcomes : List PatchOutcome}
    (h : Reaches job tree (.wiring files left outcomes last)) :
    Reaches job tree
      (endOf job files outcomes (Providers.patchFiles job.insertions left last)) := by
  have hnext := h.step .next rfl
  induction left generalizing outcomes last with
  | nil =>
      rw [endOf_patchFiles_nil]
      exact hnext
  | cons path rest ih =>
      rcases endOf_patchFiles_cons job files outcomes path rest last with
        ⟨result, after, hwire, hend⟩ | ⟨more, after, hwire, hend⟩
      · rw [hend, ← hwire]
        exact hnext
      · rw [hwire] at hnext
        rw [hend]
        exact ih hnext (hnext.step .next rfl)

/-- A run whose models were emitted patches its provider files, if it wires. -/
theorem Begun.reaches_endOf
    {outcome : Except WireError (List PatchOutcome) × FileTree}
    (hbegun : Begun job tree directory made)
    (hemission : Emission.Returns (job.emission directory) made (.ok files) last)
    (hwire : job.settings.wire = true)
    (hpatch : Providers.patch directory job.insertions last = outcome) :
    Reaches job tree (endOf job files [] outcome) := by
  have hsettle := hbegun.reaches_settle hemission
  rw [← hpatch, Providers.patch_of_candidates]
  simp only [settle, hwire, if_true] at hsettle
  cases hcandidates : Providers.candidates last directory with
  | error e =>
      rw [hcandidates] at hsettle
      exact hsettle
  | ok paths =>
      rw [hcandidates] at hsettle
      exact hsettle.wiring

/-- A run ends the way its parts end, one after the other. -/
theorem reaches_ended_iff :
    Reaches job tree (.ended result after) ↔ Ends job tree result after := by
  constructor
  · exact fun h => h.follows
  · intro h
    cases h with
    | nothing hmodels =>
        refine Reaches.start.step .next ?_
        simp [Generation.step, begin, hmodels]
    | noDirectory hmodels hdirectory =>
        refine Reaches.start.step .next ?_
        simp [Generation.step, begin, hmodels, hdirectory]
    | notMade hmodels hdirectory hmade =>
        refine Reaches.start.step .next ?_
        simp [Generation.step, begin, hmodels, hdirectory, hmade]
    | failed hbegun hemission => exact hbegun.reaches_settle hemission
    | emitted hbegun hemission hwire =>
        have hsettle := hbegun.reaches_settle hemission
        simpa [settle, hwire] using hsettle
    | wired hbegun hemission hwire hpatch => exact hbegun.reaches_endOf hemission hwire hpatch
    | unwired hbegun hemission hwire hpatch => exact hbegun.reaches_endOf hemission hwire hpatch

/-! ## Progress -/

theorem RunState.run_append
    {first second : List RunMove}
    {middle : RunState}
    (h : state.run job first = some middle) :
    state.run job (first ++ second) = middle.run job second := by
  simp only [RunState.run] at h ⊢
  rw [List.foldlM_append, h]
  rfl

theorem RunState.run_step
    {move : RunMove}
    {next : RunState}
    (h : Generation.step job state move = some next)
    (schedule : List RunMove) :
    state.run job (move :: schedule) = next.run job schedule := by
  simp [RunState.run, h]

theorem exists_run_of_wiring
    (job : GenerationJob)
    (files : List EmittedFile)
    (left : List Path)
    (outcomes : List PatchOutcome)
    (tree : FileTree) :
    ∃ schedule after,
      (RunState.wiring files left outcomes tree).run job schedule = some after ∧
        after.result?.isSome = true := by
  induction left generalizing outcomes tree with
  | nil => exact ⟨[.next], _, rfl, rfl⟩
  | cons path rest ih =>
      rcases hfile : Providers.patchFile job.insertions path tree with ⟨e | more, next⟩
      · refine ⟨[.next], _, RunState.run_step rfl [], ?_⟩
        simp [wireNext, hfile, RunState.result?]
      · obtain ⟨schedule, after, hrun, hend⟩ := ih (outcomes ++ more) next
        refine ⟨.next :: schedule, after, ?_, hend⟩
        rw [RunState.run_step rfl]
        simp only [wireNext, hfile]
        exact hrun

theorem exists_run_of_settle
    (job : GenerationJob)
    (directory : Path)
    (tree : FileTree)
    (result : Emission.UnitResult) :
    ∃ schedule after,
      (settle job directory tree result).run job schedule = some after ∧
        after.result?.isSome = true := by
  unfold settle
  split
  · exact ⟨[], _, rfl, rfl⟩
  · split
    · split
      · exact ⟨[], _, rfl, rfl⟩
      · exact exists_run_of_wiring job _ _ _ _
    · exact ⟨[], _, rfl, rfl⟩

theorem run_emission
    {emission after : Emission.State}
    {schedule : List Emission.Move}
    (h : emission.run (job.emission directory) schedule = some after) :
    (RunState.emitting directory emission).run job (schedule.map .emission) =
      some (.emitting directory after) := by
  induction schedule generalizing emission with
  | nil =>
      cases h
      rfl
  | cons move rest ih =>
      obtain ⟨middle, hmove, hrest⟩ := Emission.State.run_cons_eq_some_iff.mp h
      rw [List.map_cons, RunState.run_step (step_eq_some_iff.mpr (.emission hmove))]
      exact ih hrest

theorem exists_run_of_emitting
    {emission : Emission.State}
    (h : Emission.Reaches (job.emission directory) made emission) :
    ∃ schedule after,
      (RunState.emitting directory emission).run job schedule = some after ∧
        after.result?.isSome = true := by
  obtain ⟨moves, returned, hmoves, hret⟩ := h.exists_run_returned
  obtain ⟨result, hresult⟩ := Option.isSome_iff_exists.mp hret
  obtain ⟨schedule, after, hrun, hend⟩ :=
    exists_run_of_settle job directory returned.tree result
  refine ⟨moves.map .emission ++ .next :: schedule, after, ?_, hend⟩
  rw [RunState.run_append (run_emission hmoves),
    RunState.run_step (step_eq_some_iff.mpr (.settle hresult))]
  exact hrun

theorem exists_run_of_begin
    (job : GenerationJob)
    (tree : FileTree) :
    ∃ schedule after,
      (begin job tree).run job schedule = some after ∧ after.result?.isSome = true := by
  unfold begin
  split
  · exact ⟨[], _, rfl, rfl⟩
  · split
    · exact ⟨[], _, rfl, rfl⟩
    · split
      · exact ⟨[], _, rfl, rfl⟩
      · exact exists_run_of_emitting .start

/-- Every schedule can be continued until the run ends. -/
theorem Reaches.exists_run_ended
    (h : Reaches job tree state) :
    ∃ schedule after,
      state.run job schedule = some after ∧ after.result?.isSome = true := by
  have hfollows := h.follows
  cases state with
  | starting seen =>
      obtain ⟨schedule, after, hrun, hend⟩ := exists_run_of_begin job seen
      refine ⟨.next :: schedule, after, ?_, hend⟩
      rw [RunState.run_step rfl]
      exact hrun
  | emitting directory emission =>
      obtain ⟨made, -, hreach⟩ := hfollows
      exact exists_run_of_emitting hreach
  | wiring files left outcomes seen => exact exists_run_of_wiring job files left outcomes seen
  | ended result seen => exact ⟨[], _, rfl, rfl⟩

/-! ## The run without concurrency -/

theorem wire_eq
    (directory : Path)
    (insertions : List Insertion)
    (report : GenerationReport)
    (tree : FileTree) :
    wire directory insertions report tree =
      match Providers.patch directory insertions tree with
      | (.error e, after) => (.ok (unwired report e), after)
      | (.ok outcomes, after) => (.ok (Generation.wired report insertions outcomes), after) := by
  unfold wire
  rw [bind_ok (attempt_apply _ tree)]
  rcases Providers.patch directory insertions tree with ⟨_ | _, _⟩ <;> rfl

theorem ends_wire
    (hbegun : Begun job tree directory made)
    (hemission : Emission.Returns (job.emission directory) made (.ok files) last)
    (hwire : job.settings.wire = true) :
    Ends job tree (wire directory job.insertions (job.reportWith files) last).1
      (wire directory job.insertions (job.reportWith files) last).2 := by
  rw [wire_eq]
  rcases hpatch : Providers.patch directory job.insertions last with ⟨e | outcomes, after⟩
  · exact .unwired hbegun hemission hwire hpatch
  · exact .wired hbegun hemission hwire hpatch

/-- One of the schedules is the run without any concurrency. -/
theorem reaches_execute
    (job : GenerationJob)
    (tree : FileTree) :
    Reaches job tree
      (.ended (execute job.settings job.formatter job.collected tree).1
        (execute job.settings job.formatter job.collected tree).2) := by
  rw [reaches_ended_iff]
  unfold execute
  by_cases hmodels : job.collected.models = []
  · rw [if_pos (by simpa using hmodels)]
    exact .nothing hmodels
  · rw [if_neg (by simpa using hmodels)]
    simp only
    cases hdirectory : job.settings.outputDirectory tree.workingDirectory with
    | error e =>
        rw [bind_error (show viewE _ tree = (.error e, tree) by rw [viewE, hdirectory])]
        exact .noDirectory hmodels hdirectory
    | ok directory =>
        rw [bind_ok (show viewE _ tree = (.ok directory, tree) by rw [viewE, hdirectory])]
        rcases hmade : createDirectories directory tree with ⟨e | u, made⟩
        · rw [bind_error (adapt_eq_error_iff.mpr ⟨e, hmade, rfl⟩)]
          exact .notMade hmodels hdirectory hmade
        · rw [bind_ok (adapt_eq_ok_iff.mpr hmade)]
          have hbegun : Begun job tree directory made := ⟨hmodels, hdirectory, hmade⟩
          let emitter : Emitter := ⟨job.settings.library, job.formatter, job.settings.project⟩
          have hreturns : Emission.Returns (job.emission directory) made
              (emitter.emit directory (job.collected.models.map Prod.snd) made).1
              (emitter.emit directory (job.collected.models.map Prod.snd) made).2 :=
            Emission.returns_emit (job.emission directory) made
          rcases hemit : emitter.emit directory (job.collected.models.map Prod.snd) made with
            ⟨e | files, last⟩
          · rw [hemit] at hreturns
            rw [bind_error hemit]
            exact .failed hbegun hreturns
          · rw [hemit] at hreturns
            rw [bind_ok hemit]
            cases hwire : job.settings.wire with
            | false =>
                simp only [Bool.false_eq_true, if_false, pure_apply]
                exact .emitted hbegun hreturns hwire
            | true =>
                simp only [if_true]
                exact ends_wire hbegun hreturns hwire

end Generation
end GormForge
