import GormForge.Format.Formatter
import GormForge.GeneratedFile
import GormForge.Keyed
import GormForge.Template.Library

/-!
# Emission

The two files of a model: the generated queries, written on every run, and the interface for
queries written by hand, created once.

**Algorithm.**  A file is rendered from a context that was checked and then formatted, all
before anything is written.  Models are emitted in order, and the first failure stops the
emission.

**Results.**  `emit` gives what became of every file, two for each model, in order.
-/

namespace GormForge

/-- The first line of every file that is written anew on each run. -/
def generatedHeader : String := "// Code generated by kun. DO NOT EDIT."

/-- What became of a file of a model. -/
inductive FileOutcome where
  | regenerated
  | created
  /-- Left the way its owner had it. -/
  | preserved
  deriving Repr, DecidableEq, Inhabited

/-- The wording of an outcome. -/
def FileOutcome.message : FileOutcome → String
  | regenerated => "regenerated"
  | created => "created"
  | preserved => "preserved"

/-- A file of a model. -/
structure EmittedFile where
  table : String
  package : String
  structName : String
  path : Path
  outcome : FileOutcome
  deriving Repr, DecidableEq

/-- The two files of a model. -/
inductive ModelFile where
  | queries
  | custom
  deriving Repr, DecidableEq, Inhabited

namespace ModelFile

/-- The files of a model, in the order in which they are written. -/
def all : List ModelFile :=
  [queries, custom]

/-- The kind of template for a file. -/
def kind : ModelFile → Template.Kind
  | queries => .repositoryQueries
  | custom => .repositoryCustom

/-- The rules for writing a file. -/
def rules : ModelFile → FileRules
  | queries => FileRules.generated generatedHeader
  | custom => FileRules.createOnce

/-- The name of a file. -/
def nameFor (file : ModelFile) (model : GoStruct) : String :=
  match file with
  | queries => model.fileName ++ "_gen.go"
  | custom => model.fileName ++ ".go"

/-- Where a file goes. -/
def pathIn (file : ModelFile) (directory : Path) (model : GoStruct) : Path :=
  directory.child (file.nameFor model)

/-- What became of a file. -/
def outcomeOf : ModelFile → WriteResult → FileOutcome
  | queries, _ => .regenerated
  | custom, .written => .created
  | custom, .skipped => .preserved

/-- The record of a file of a model. -/
def record (file : ModelFile) (directory : Path) (model : GoStruct) (result : WriteResult) :
    EmittedFile where
  table := model.tableName
  package := model.packageName
  structName := model.structName
  path := file.pathIn directory model
  outcome := file.outcomeOf result

end ModelFile

/-- What it takes to emit models. -/
structure Emitter where
  library : Template.Library := .builtin
  formatter : Formatter := .passthrough
  /-- The path of the project's Go module. -/
  project : String := ""

namespace Emitter

/-- The text of a file of a model. -/
def render (emitter : Emitter) (directory : Path) (model : GoStruct) (file : ModelFile)
    (tree : FileTree) : Except GenerateError String :=
  let context := RenderContext.ofModel model emitter.project
  match context.validate with
  | .error e => .error e
  | .ok () =>
    match emitter.library.renderWith tree file.kind context.scope with
    | .error e => .error e
    | .ok source =>
        Formatter.formatSource emitter.formatter (file.pathIn directory model) source

/-- What is to be written to a file of a model. -/
def prepareFile (emitter : Emitter) (directory : Path) (model : GoStruct) (file : ModelFile)
    (tree : FileTree) : Except GenerateError (Option String) :=
  GeneratedFile.prepare (file.pathIn directory model) file.rules
    (emitter.render directory model file) tree

/-- Write what was prepared for a file of a model. -/
def storeFile (directory : Path) (model : GoStruct) (file : ModelFile)
    (prepared : Option String) : FileAction GenerateError EmittedFile := do
  let result ← FileTree.adapt .write (GeneratedFile.store (file.pathIn directory model) prepared)
  return file.record directory model result

/-- Emit one file of a model. -/
def emitFile (emitter : Emitter) (directory : Path) (model : GoStruct) (file : ModelFile) :
    FileAction GenerateError EmittedFile := do
  let prepared ← FileTree.viewE (emitter.prepareFile directory model file)
  storeFile directory model file prepared

/-- Emit the files of a model. -/
def emitModel (emitter : Emitter) (directory : Path) (model : GoStruct) :
    FileAction GenerateError (List EmittedFile) :=
  ModelFile.all.mapM (emitter.emitFile directory model)

/-- Emit models one after the other, up to the first failure. -/
def emitInOrder (emitter : Emitter) (directory : Path) :
    List GoStruct → FileAction GenerateError (List EmittedFile)
  | [] => pure []
  | model :: rest => do
    let files ← emitter.emitModel directory model
    let more ← emitInOrder emitter directory rest
    return files ++ more

/-- Emit models. -/
def emit (emitter : Emitter) (directory : Path) (models : List GoStruct) :
    FileAction GenerateError (List EmittedFile) :=
  FileTree.adapt (fun e => .emit e []) (emitter.emitInOrder directory models)

/-- Models by struct name; a repeated name takes the place of the earlier one. -/
def keyedByName (models : List GoStruct) : List (String × GoStruct) :=
  models.foldl (fun keyed model => Keyed.put model.structName model keyed) []

end Emitter
end GormForge
