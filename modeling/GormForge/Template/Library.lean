import GormForge.FileTree.Basic
import GormForge.GenerateError
import GormForge.Model.Context
import GormForge.Template.Builtin
import GormForge.Template.Grammar
import GormForge.Template.Render

/-!
# Template libraries

Where templates come from: they are built in, or lie in a directory that stands in for some
of them.

**Input.**  A directory of templates comes with the engine that renders them, which may know
more of the template language than the part of it that is read here.  The built-in templates
need no more than that part.

**Results.**  `bodyOf` is the source of a template and `renderWith` the text that it gives
for the values of its names; a template that cannot be read, understood or rendered is a
failure that names it.
-/

namespace GormForge
namespace Template

/-- What makes a text of the source of a template and the values of its names: nothing if the
source cannot be understood or rendered. -/
abbrev Engine := Kind → String → Scope → Option String

/-- The engine for the part of the template language that is read here. -/
def Engine.standard : Engine := fun _ source scope =>
  (parse? source).bind (renderAll scope)

/-- A source of templates. -/
inductive Library where
  | builtin
  /-- A directory whose files come before the built-in templates, and what renders them. -/
  | directory (path : Path) (engine : Engine := Engine.standard)
  deriving Inhabited

namespace Library

/-- The library for an optional directory. -/
def ofOption (directory : Option Path) : Library :=
  match directory with
  | some path => if path.text.isEmpty then .builtin else .directory path
  | none => .builtin

/-- The source that a directory gives for a template, if it holds one. -/
def overrideOf? (library : Library) (tree : FileTree) (kind : Kind) :
    Except GenerateError (Option String) :=
  match library with
  | .builtin => .ok none
  | .directory path _ =>
    match tree.readText (path.child kind.key) with
    | .ok source => .ok (some source)
    | .error .notFound => .ok none
    | .error _ => .error (.templateRead (path.child kind.key))

/-- The source of a template. -/
def bodyOf (library : Library) (tree : FileTree) (kind : Kind) : Except GenerateError String :=
  match library.overrideOf? tree kind with
  | .ok source => .ok (source.getD (sourceOf kind.builtin))
  | .error e => .error e

/-- The directory of templates. -/
def directory? : Library → Option Path
  | .builtin => none
  | .directory path _ => some path

/-- The engine for the templates of a directory. -/
def engine : Library → Engine
  | .builtin => Engine.standard
  | .directory _ engine => engine

/-- The text that a template gives, where a directory may hold a source for it. -/
def expand? (library : Library) (kind : Kind) (scope : Scope) : Option String → Option String
  | none => renderAll scope kind.builtin
  | some source => library.engine kind source scope

/-- A directory that comes with no engine of its own is rendered as far as its templates are read
here. -/
theorem expand?_directory
    (path : Path)
    (kind : Kind)
    (scope : Scope)
    (source : String) :
    (directory path).expand? kind scope (some source) =
      (parse? source).bind (renderAll scope) := by
  rfl

/-- The text that a template gives for the values of its names. -/
def renderWith (library : Library) (tree : FileTree) (kind : Kind) (scope : Scope) :
    Except GenerateError String :=
  match library.overrideOf? tree kind with
  | .error e => .error e
  | .ok source =>
    match library.expand? kind scope source with
    | some text => .ok text
    | none => .error (.template kind.key)

end Library
end Template

/-! ## Contexts -/

/-- The names that a template sees of a field. -/
def FieldContext.value (field : FieldContext) : Template.Value :=
  .record [
    ("column", .string field.column), ("comment", .string field.comment),
    ("is_primary_key", .boolean field.isPrimaryKey), ("name", .string field.name),
    ("tags", .string field.tags), ("type", .string field.goType)]

/-- The names that a template sees of a model. -/
def RenderContext.scope (context : RenderContext) : Template.Scope := [
    ("version", .integer contextVersion), ("project", .string context.project),
    ("package", .string context.package), ("file_name", .string context.fileName),
    ("interface_name", .string context.interfaceName),
    ("struct_name", .string context.structName), ("table_name", .string context.tableName),
    ("struct_comment", .string context.structComment),
    ("primary_key_type", .string context.primaryKeyType),
    ("primary_key_field", .string context.primaryKeyField),
    ("primary_key_column", .string context.primaryKeyColumn),
    ("imports", .list (context.imports.paths.map .string)),
    ("fields", .list (context.fields.map FieldContext.value))
  ]

/-- The names that a template sees of a scaffold. -/
def ScaffoldContext.scope (context : ScaffoldContext) : Template.Scope := [
    ("version", .integer contextVersion), ("project", .string context.project),
    ("package", .string context.package), ("kind", .string context.kind),
    ("name", .string context.name), ("lower_name", .string context.lowerName),
    ("first_char", .string context.firstChar)
  ]

end GormForge
