import GormForge.Generation.Run
import GormForge.Scaffold.Create

/-!
# Reports

What a command tells its user, line by line.

**Contents.**  A `Line` has a rank, which decides how it is marked and where it is printed;
the functions below word what became of repositories, of scaffolds and of runs of the
injector generator.
-/

namespace GormForge
namespace CommandLine

/-- A message to the user; its text may have line breaks of its own. -/
inductive Line where
  /-- Something that worked, such as a written file. -/
  | success (text : String)
  /-- A problem that did not stop the command. -/
  | warning (text : String)
  /-- The failure of one item among others. -/
  | error (text : String)
  /-- An item of a list. -/
  | item (text : String)
  /-- The words of another program. -/
  | verbatim (text : String)
  deriving Repr, DecidableEq

namespace Line

/-- Whether a line goes to the error output. -/
def isDiagnostic : Line → Bool
  | warning _ | error _ => true
  | _ => false

/-- A line the way it is printed. -/
def shown : Line → String
  | success text => " [√] " ++ text
  | warning text => " [!] " ++ text
  | error text => " [X] " ++ text
  | item text => "     - " ++ text
  | verbatim text => text

end Line

namespace Report

/-- The entry of an insertion, without its comma. -/
def entryOf (text : String) : String :=
  String.ofList (Text.trimEndBy (· == ',') (Text.trimChars text.toList))

/-- The lines for the constructors that were entered. -/
def wiringLines (outcomes : List PatchOutcome) : List Line :=
  (outcomes.filter (·.patch.isInserted)).map fun outcome =>
    .success s!"insert {entryOf outcome.text} into DI file {outcome.path.text}"

/-! ## Repositories -/

/-- The line for a generated file. -/
def fileLine (file : EmittedFile) : Line :=
  if file.outcome = .preserved then
    .item ("kept " ++ file.path.text)
  else
    .success ("generate repository file(table <" ++ file.table ++ "> -> \x7b" ++ file.package ++
      "." ++ file.structName ++ "\x7d): " ++ file.path.text)

/-- The lines for a generation run, after the warnings that came before it. -/
def generationLines (redactedDsn : String) (warnings : List String) (report : GenerationReport) :
    List Line :=
  (warnings ++ report.warnings).map .warning ++
    report.ignored.map (fun table => .warning s!"ignore table <{table}>: no columns") ++
    report.failed.map (fun failure =>
      .error s!"generate struct for table <{failure.table}> failed: {failure.error.message}") ++
    report.files.map fileLine ++
    wiringLines report.wiring ++
    if report.isEmpty && report.failed.isEmpty then
      [.warning ("nothing generated from " ++ redactedDsn)]
    else
      []

/-! ## Scaffolds -/

/-- The lines for one scaffold. -/
def scaffoldLines (outcome : ScaffoldOutcome) : List Line :=
  let head : Line :=
    match outcome.result with
    | .written => .success s!"Created new {outcome.kind.name}: {outcome.path.text}"
    | .skipped => .warning s!"file {outcome.path.text} already exists."
  head :: outcome.warnings.map .warning ++ wiringLines outcome.wiring

/-! ## Runs of the injector generator -/

/-- What a run in a directory came to. -/
structure WireRun where
  directory : Path
  success : Bool
  /-- What the run printed, without blanks around it. -/
  output : String
  deriving Repr, DecidableEq

/-- The run that a tool made of a directory. -/
def WireRun.ofOutput (directory : Path) (done : Formatter.ToolOutput) : WireRun :=
  ⟨directory, done.success,
    Text.trim (Text.decodeLossy done.output ++ Text.decodeLossy done.errorOutput)⟩

/-- The lines for one run. -/
def wireLines (run : WireRun) : List Line :=
  let rest : List Line :=
    if !run.success then [.error ("wire fail: " ++ run.output)]
    else if run.output.isEmpty then []
    else [.verbatim run.output]
  .success ("wire.go path: " ++ run.directory.text) :: rest

end Report
end CommandLine
end GormForge
