import GormForge.Emission.Schedule
import GormForge.Generation.Run

/-!
# Schedules of a generation run

A generation run step by step, with an emission whose workers run at the same time.

**Input.**  A schedule is a list of moves; within the emission, a move lets the submitter or a
worker take its next step.

**Algorithm.**  The output directory is made, the models are emitted, and then the provider
files are patched one after the other.  A failure before the wiring ends the run; one that
arises in the wiring is a warning.

**Results.**  `step` gives the state after a move, `run` the state after a schedule.
-/

namespace GormForge

/-- What a run generates, and with what. -/
structure GenerationJob where
  settings : GenerationSettings
  source : SchemaSource
  /-- The tables that are asked for. -/
  tables : List String
  formatter : Formatter := .passthrough
  /-- The number of workers that may run at the same time. -/
  workers : Nat

namespace GenerationJob

/-- What was collected from the tables. -/
def collected (job : GenerationJob) : Generation :=
  Generation.addTables job.settings job.source {} job.tables

/-- The collected models. -/
def models (job : GenerationJob) : List GoStruct :=
  job.collected.models.map Prod.snd

/-- The provider entries of the models. -/
def insertions (job : GenerationJob) : List Insertion :=
  Generation.insertionsOf job.models

/-- The emission into a directory. -/
def emission (job : GenerationJob) (directory : Path) : Emission.Job where
  emitter := ⟨job.settings.library, job.formatter, job.settings.project⟩
  directory := directory
  workers := job.workers
  models := job.models

/-- The report with the files that were emitted. -/
def reportWith (job : GenerationJob) (files : List EmittedFile) : GenerationReport :=
  { job.collected.report with files := files }

end GenerationJob

namespace Generation

/-! ## States -/

/-- A state of a run. -/
inductive RunState where
  | starting (tree : FileTree)
  | emitting (directory : Path) (emission : Emission.State)
  /-- Patching the provider files that are left. -/
  | wiring (files : List EmittedFile) (left : List Path) (outcomes : List PatchOutcome)
      (tree : FileTree)
  | ended (result : Except GenerateError GenerationReport) (tree : FileTree)

namespace RunState

/-- The tree of a state. -/
def tree : RunState → FileTree
  | starting tree | wiring _ _ _ tree | ended _ tree => tree
  | emitting _ emission => emission.tree

/-- What the run came to, once it is over. -/
def result? : RunState → Option (Except GenerateError GenerationReport)
  | ended result _ => some result
  | _ => none

end RunState

/-- A move of a schedule. -/
inductive RunMove where
  /-- The next step of the run itself. -/
  | next
  | emission (move : Emission.Move)
  deriving Repr, DecidableEq

/-! ## Steps -/

/-- The first step: make the output directory, unless there is nothing to generate. -/
def begin (job : GenerationJob) (tree : FileTree) : RunState :=
  if job.collected.models.isEmpty then
    .ended (.ok job.collected.report) tree
  else
    match job.settings.outputDirectory tree.workingDirectory with
    | .error e => .ended (.error e) tree
    | .ok directory =>
      match FileTree.createDirectories directory tree with
      | (.error _, made) => .ended (.error (.createDirectory directory)) made
      | (.ok (), made) => .emitting directory (.start (job.emission directory) made)

/-- The step after an emission that returned: look for provider files, if the run wires. -/
def settle (job : GenerationJob) (directory : Path) (tree : FileTree) :
    Emission.UnitResult → RunState
  | .error e => .ended (.error e) tree
  | .ok files =>
    if job.settings.wire then
      match Providers.candidates tree directory with
      | .error e => .ended (.ok (unwired (job.reportWith files) e)) tree
      | .ok paths => .wiring files paths [] tree
    else
      .ended (.ok (job.reportWith files)) tree

/-- Patch the next provider file, if one is left. -/
def wireNext (job : GenerationJob) (files : List EmittedFile) (outcomes : List PatchOutcome)
    (tree : FileTree) : List Path → RunState
  | [] => .ended (.ok (wired (job.reportWith files) job.insertions outcomes)) tree
  | path :: rest =>
    match Providers.patchFile job.insertions path tree with
    | (.error e, after) => .ended (.ok (unwired (job.reportWith files) e)) after
    | (.ok more, after) => .wiring files rest (outcomes ++ more) after

/-- The state after a move, if the move is possible. -/
def step (job : GenerationJob) : RunState → RunMove → Option RunState
  | .starting tree, .next => some (begin job tree)
  | .emitting directory emission, .emission move =>
      (emission.move (job.emission directory) move).map (.emitting directory)
  | .emitting directory emission, .next =>
      emission.returned?.map (settle job directory emission.tree)
  | .wiring files left outcomes tree, .next => some (wireNext job files outcomes tree left)
  | _, _ => none

/-- The state after a schedule, if all of its moves are possible. -/
def RunState.run (job : GenerationJob) (state : RunState) (schedule : List RunMove) :
    Option RunState :=
  schedule.foldlM (Generation.step job) state

/-! ## Runs -/

/-- The states to which schedules of a run lead from a tree. -/
inductive Reaches (job : GenerationJob) (tree : FileTree) : RunState → Prop
  | start : Reaches job tree (.starting tree)
  | step {state after : RunState} (move : RunMove) :
      Reaches job tree state →
      Generation.step job state move = some after →
      Reaches job tree after

end Generation
end GormForge
