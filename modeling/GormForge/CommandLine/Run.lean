import GormForge.CommandLine.Help
import GormForge.CommandLine.Invocation
import GormForge.CommandLine.Report
import GormForge.GoModule
import GormForge.Schema.Connection
import GormForge.Wiring.WireFiles

/-!
# Running commands

From a command line to a changed file tree and a report.

**Input.**  The environment of a run gives the programs that can be called and tells which
files are databases.

**Algorithm.**  The command line is read first, then the configuration, and only then
anything is done.  A command that fails says so and keeps what was written before.

**Results.**  `run` gives the outcome; `Outcome.exitCode` is 0 when the command was carried
out, 1 when it failed and 2 when the command line is no call.
-/

namespace GormForge
namespace CommandLine

/-- What a run finds outside the file tree. -/
structure Environment where
  /-- The program of a name, as it runs in a directory. -/
  program? : String → Option (Path → Formatter.Tool) := fun _ => none
  /-- The database that the content of a file is. -/
  catalogOf? : Content → Option Sqlite.Catalog := fun _ => none

/-- Why a command failed. -/
inductive Failure where
  | config (e : ConfigError)
  | generate (e : GenerateError)
  /-- The search for wire files failed. -/
  | search (cause : IoError)
  /-- There is no wire file. -/
  | noWireFile
  /-- There is a choice of wire files and nobody to ask. -/
  | ambiguousWireFile
  /-- The injector generator could not be run. -/
  | wire (directory : Path) (cause : IoError)

/-- The wording of a failure. -/
def Failure.message : Failure → String
  | config e => e.message
  | generate e => e.message
  | search cause => s!"Failed to search for wire.go: {cause.message}"
  | noWireFile => "The wire.go cannot be found in the current directory"
  | ambiguousWireFile => "Failed to get directory selection"
  | wire directory cause => s!"Failed to run wire in {directory.text}: {cause.message}"

/-- What a run came to. -/
inductive Outcome where
  | done (lines : List Line)
  | failed (e : Failure)
  | stopped (stop : Stop)

/-- The exit code of an outcome. -/
def Outcome.exitCode : Outcome → Nat
  | done _ => 0
  | failed _ => 1
  | stopped (.misuse _) => 2
  | stopped _ => 0

/-- The version of the program. -/
def versionLine : String :=
  Command.program.word ++ " 0.3.0"

/-- Lines of text, each with its line break. -/
def printed (lines : List String) : String :=
  String.join (lines.map (· ++ "\n"))

namespace Outcome

/-- What is printed to the standard output. -/
def standardOutput : Outcome → String
  | done lines => printed ((lines.filter (!·.isDiagnostic)).map (·.shown))
  | stopped (.help command) => printed (Help.lines command)
  | stopped .version => printed [versionLine]
  | _ => ""

/-- What is printed to the error output. -/
def errorOutput : Outcome → String
  | done lines => printed ((lines.filter (·.isDiagnostic)).map (·.shown))
  | failed e => printed ["Error: " ++ e.message]
  | stopped (.misuse e) => printed ["error: " ++ e.message]
  | _ => ""

end Outcome

/-! ## What commands share -/

/-- The formatter of a name, and a warning when it is missing. -/
def formatterNamed (environment : Environment) (cwd : Path) (program : String) :
    Formatter × List String :=
  if program = "none" then
    (.passthrough, [])
  else
    match environment.program? program with
    | some tool => (.ofTool program (some (tool cwd)), [])
    | none => (.passthrough, [program ++ " not found, generated files are left unformatted"])

/-- The module of the project in a directory, and a warning when it is unknown. -/
def projectIn (tree : FileTree) (directory : Path) : String × List String :=
  match GoModule.ofDirectory tree directory with
  | .ok (some path) => (path, [])
  | .ok none => ("", ["go.mod does not exist"])
  | .error e => ("", ["read go.mod error: " ++ e.message])

/-- The templates of a run: those of the command line come before those of the
configuration. -/
def libraryOf (given configured : Option Path) : Template.Library :=
  .ofOption (given.orElse fun _ => configured)

/-! ## Commands -/

/-- Create scaffolds. -/
def runScaffold (environment : Environment) (config : Config) (request : ScaffoldRequest) :
    FileAction Failure (List Line) := do
  let root ← FileTree.view FileTree.workingDirectory
  let (project, projectWarnings) ← FileTree.view (projectIn · root)
  let (formatter, formatWarnings) :=
    formatterNamed environment root (request.formatProgram.getD config.formatProgram)
  let scaffolder : Scaffolder :=
    { root := root
      library := libraryOf request.templates config.templates
      formatter := formatter
      project := project
      wire := !request.noWire }
  let outcomes ← FileTree.adapt .generate
    (request.target.kinds.mapM fun kind => scaffolder.create kind request.name)
  return (projectWarnings ++ formatWarnings).map .warning ++
    outcomes.flatMap Report.scaffoldLines

/-- Generate repositories. -/
def runRepository (environment : Environment) (config : Config) (request : RepositoryRequest) :
    FileAction Failure (List Line) := do
  let (dsn, source) ← FileTree.adapt (fun e => .generate (.schema e)) do
    let dsn ← FileTree.viewE fun _ => Dsn.parse request.dsn request.dialect
    let source ← dsn.connect environment.catalogOf?
    return (dsn, source)
  let tables ← FileTree.adapt .generate (FileTree.viewE fun _ => request.tables.resolve source)
  let cwd ← FileTree.view FileTree.workingDirectory
  let (project, projectWarnings) ← FileTree.view (projectIn · ⟨"."⟩)
  let (formatter, formatWarnings) :=
    formatterNamed environment cwd (request.formatProgram.getD config.formatProgram)
  let settings :=
    { GenerationSettings.ofRepository (request.settings config.repository) with
      library := libraryOf request.templates config.templates
      project := project }
  let report ← FileTree.adapt .generate
    ((Generation.addTables settings source {} tables).execute settings formatter)
  return Report.generationLines dsn.redacted (projectWarnings ++ formatWarnings) report

/-- The directories that hold a wire file. -/
def wireDirectories (tree : FileTree) : Except Failure (List Path) :=
  match WireFiles.directoriesBelow tree tree.workingDirectory with
  | .error e => .error (.search e)
  | .ok [] => .error .noWireFile
  | .ok found => .ok found

/-- The directories in which the injector generator is to run. -/
def targetDirectories (tree : FileTree) : WireTarget → Except Failure (List Path)
  | .directory path => .ok [path]
  | .all => wireDirectories tree
  | .single =>
    match wireDirectories tree with
    | .ok [found] => .ok [found]
    | .ok _ => .error .ambiguousWireFile
    | .error e => .error e

/-- The path of an existing directory from the root. -/
def physicalPath (tree : FileTree) (directory : Path) : Except IoError Path :=
  match tree.resolve directory with
  | .error e => .error e
  | .ok location =>
    (tree.requireDirectory location).map fun _ => ({ tree with cwd := location }).workingDirectory

/-- Run the injector generator in a directory. -/
def runWireIn (environment : Environment) (tree : FileTree) (directory : Path) :
    Except Failure Report.WireRun :=
  match physicalPath tree directory, environment.program? "wire" with
  | .error e, _ => .error (.wire directory e)
  | .ok _, none => .error (.wire directory .notFound)
  | .ok path, some tool => .ok (.ofOutput directory (tool path [] ""))

/-- Run the injector generator. -/
def runWire (environment : Environment) (target : WireTarget) :
    FileAction Failure (List Line) :=
  FileTree.viewE fun tree => do
    let directories ← targetDirectories tree target
    let runs ← directories.mapM (runWireIn environment tree)
    return runs.flatMap Report.wireLines

/-- Do what a call asks for. -/
def perform (environment : Environment) (invocation : Invocation) :
    FileAction Failure (List Line) := do
  let config ← FileTree.adapt .config
    (FileTree.viewE fun tree => Config.load tree invocation.config)
  match invocation.request with
  | .scaffold request => runScaffold environment config request
  | .repository request => runRepository environment config request
  | .wire target => runWire environment target

/-- Run the program with a command line. -/
def run (environment : Environment) (line : List String) (tree : FileTree) :
    Outcome × FileTree :=
  match Invocation.parse line with
  | .error stop => (.stopped stop, tree)
  | .ok invocation =>
    match perform environment invocation tree with
    | (.ok lines, after) => (.done lines, after)
    | (.error e, after) => (.failed e, after)

end CommandLine
end GormForge
