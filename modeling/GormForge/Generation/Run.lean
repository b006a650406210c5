import GormForge.Emission.Emitter
import GormForge.Generation.Settings
import GormForge.Generation.TableFilter
import GormForge.Wiring.Providers

/-!
# Generation runs

Tables read into models, models emitted as files, constructors entered into provider files.

**Algorithm.**  Models are collected under their struct names, so that a later table takes
the place of an earlier one with the same name.  Nothing is wired unless everything was
emitted; wiring that fails is a warning.

**Results.**  `addTables` accounts for every table, `execute` for every file.
-/

namespace GormForge

/-- A table that gave no model because of a failure. -/
structure TableFailure where
  table : String
  error : GenerateError

/-- What became of a generation run. -/
structure GenerationReport where
  /-- Tables that gave a model. -/
  tables : List String := []
  /-- Tables with nothing to generate. -/
  ignored : List String := []
  failed : List TableFailure := []
  files : List EmittedFile := []
  wiring : List PatchOutcome := []
  warnings : List String := []

/-- Whether a run generated nothing. -/
def GenerationReport.isEmpty (report : GenerationReport) : Bool :=
  report.tables.isEmpty && report.files.isEmpty

/-- What became of a table. -/
inductive TableOutcome where
  | added (structName : String) (columns : Nat)
  | ignored
  deriving Repr, DecidableEq

/-- The models collected so far. -/
structure Generation where
  /-- Models by struct name. -/
  models : List (String × GoStruct) := []
  report : GenerationReport := {}

namespace Generation

/-- Read a table and collect its model. -/
def addTable (settings : GenerationSettings) (source : SchemaSource) (state : Generation)
    (table : String) : Except GenerateError TableOutcome × Generation :=
  let structName := settings.naming.structName table
  match GoStruct.build source settings.naming settings.fields settings.goPackage table structName with
  | .error e => (.error e, state)
  | .ok built =>
    let warned := { state.report with warnings := state.report.warnings ++ built.warnings }
    match built.model with
    | none =>
        (.ok .ignored, { state with report := { warned with ignored := warned.ignored ++ [table] } })
    | some model =>
        (.ok (.added structName model.fields.length),
          { models := Keyed.put structName model state.models
            report := { warned with tables := warned.tables ++ [table] } })

/-- Read a table, collect its model and record a failure. -/
def recordTable (settings : GenerationSettings) (source : SchemaSource) (state : Generation)
    (table : String) : Generation :=
  match addTable settings source state table with
  | (.ok _, next) => next
  | (.error e, next) =>
      { next with report := { next.report with failed := next.report.failed ++ [⟨table, e⟩] } }

/-- Read tables one after the other. -/
def addTables (settings : GenerationSettings) (source : SchemaSource) (state : Generation)
    (tables : List String) : Generation :=
  tables.foldl (recordTable settings source) state

/-- The provider entries of models. -/
def insertionsOf (models : List GoStruct) : List Insertion :=
  models.map fun model => Insertion.repository model.packageName model.structName

/-- The warning for an entry that was placed nowhere. -/
def unplacedWarning (insertion : Insertion) : String :=
  "no `" ++ insertion.marker ++ "` line found for " ++ Text.trim insertion.text

/-- The report of a run after its provider files were patched. -/
def wired (report : GenerationReport) (insertions : List Insertion)
    (outcomes : List PatchOutcome) : GenerationReport :=
  let missing := (Providers.unplaced insertions outcomes).map unplacedWarning
  { report with wiring := outcomes, warnings := report.warnings ++ missing }

/-- The report of a run whose provider files could not be patched. -/
def unwired (report : GenerationReport) (e : WireError) : GenerationReport :=
  { report with warnings := report.warnings ++ ["DI file not updated: " ++ e.message] }

/-- Enter constructors into the provider files next to a package. -/
def wire (directory : Path) (insertions : List Insertion) (report : GenerationReport) :
    FileAction GenerateError GenerationReport := do
  match ← FileTree.attempt (Providers.patch directory insertions) with
  | .ok outcomes => return wired report insertions outcomes
  | .error e => return unwired report e

/-- Emit the collected models and wire them. -/
def execute (settings : GenerationSettings) (formatter : Formatter) (state : Generation) :
    FileAction GenerateError GenerationReport := do
  if state.models.isEmpty then
    return state.report
  let models := state.models.map Prod.snd
  let directory ← FileTree.viewE fun tree => settings.outputDirectory tree.workingDirectory
  FileTree.adapt (fun _ => .createDirectory directory) (FileTree.createDirectories directory)
  let emitter : Emitter := ⟨settings.library, formatter, settings.project⟩
  let files ← emitter.emit directory models
  let report := { state.report with files := files }
  if settings.wire then
    wire directory (insertionsOf models) report
  else
    return report

end Generation
end GormForge
