import GormForge.Format.Formatter
import GormForge.GeneratedFile
import GormForge.Scaffold.Kind
import GormForge.Scaffold.Name
import GormForge.Template.Library
import GormForge.Wiring.Providers

/-!
# Creating scaffolds

**Algorithm.**  A file that exists is left alone.  Otherwise it is rendered, formatted and
written, and its constructor is entered into the provider files next to it; wiring that
fails is a warning.

**Results.**  `create` tells what became of the file and of its constructor.
-/

namespace GormForge

/-- What it takes to create scaffolds. -/
structure Scaffolder where
  root : Path := ⟨"."⟩
  library : Template.Library := .builtin
  formatter : Formatter := .passthrough
  /-- The path of the project's Go module. -/
  project : String := ""
  /-- Whether constructors are entered into the provider files. -/
  wire : Bool := true

/-- What became of a scaffold. -/
structure ScaffoldOutcome where
  kind : ScaffoldKind
  path : Path
  result : WriteResult := .skipped
  wiring : List PatchOutcome := []
  warnings : List String := []
  deriving Repr, DecidableEq

namespace Scaffolder

/-- Where a scaffold goes. -/
def pathOf (scaffolder : Scaffolder) (kind : ScaffoldKind) (name : ScaffoldName) : Path :=
  (scaffolder.root.join (name.directory.getD kind.defaultDirectory)).child name.fileName

/-- The package of a file: the name of its directory, or of its kind. -/
def packageOf (kind : ScaffoldKind) (path : Path) : String :=
  (path.parent?.bind Path.fileName?).getD kind.name

/-- The context of a scaffold. -/
def contextOf (scaffolder : Scaffolder) (kind : ScaffoldKind) (name : ScaffoldName) :
    ScaffoldContext where
  project := scaffolder.project
  package := packageOf kind (scaffolder.pathOf kind name)
  kind := kind.name
  name := name.name
  lowerName := name.lowerName
  firstChar := name.firstChar

/-- The text of a scaffold. -/
def render (scaffolder : Scaffolder) (kind : ScaffoldKind) (name : ScaffoldName)
    (tree : FileTree) : Except GenerateError String :=
  let context := scaffolder.contextOf kind name
  match context.validate with
  | .error e => .error e
  | .ok () =>
    match scaffolder.library.renderWith tree kind.template context.scope with
    | .error e => .error e
    | .ok source =>
        Formatter.formatSource scaffolder.formatter (scaffolder.pathOf kind name) source

/-- Enter the constructor of a new scaffold into the provider files next to it. -/
def wireOutcome (marker ctor : String) (outcome : ScaffoldOutcome) :
    FileAction GenerateError ScaffoldOutcome := do
  let insertions := [Insertion.provider marker ctor]
  match ← FileTree.attempt (Providers.patch outcome.path insertions) with
  | .ok outcomes =>
    let warnings :=
      if (Providers.unplaced insertions outcomes).isEmpty then []
      else ["no `" ++ marker ++ "` line found for " ++ ctor]
    return { outcome with wiring := outcomes, warnings := warnings }
  | .error e =>
    return { outcome with warnings := ["DI file not updated: " ++ e.message] }

/-- Create a scaffold unless its file exists. -/
def create (scaffolder : Scaffolder) (kind : ScaffoldKind) (name : ScaffoldName) :
    FileAction GenerateError ScaffoldOutcome := do
  let path := scaffolder.pathOf kind name
  let result ← GeneratedFile.put GenerateError.write path FileRules.createOnce
    (scaffolder.render kind name)
  let outcome : ScaffoldOutcome := { kind := kind, path := path, result := result }
  match result, scaffolder.wire, kind.provider? with
  | .written, true, some (marker, ending) =>
      wireOutcome marker ("New" ++ name.name ++ ending) outcome
  | _, _, _ => return outcome

end Scaffolder
end GormForge
