import GormForge.Model.GoStruct

/-!
# Template contexts

The values that templates can refer to: all that is known about a model, and all that is
known about a scaffold.

**Results.**  `validate` refuses a context that no template could turn into Go code.
-/

namespace GormForge

/-! ## Imports -/

/-- A set of Go import paths, sorted and without repetition. -/
structure ImportSet where
  paths : List String := []
  deriving Repr, DecidableEq, Inhabited

namespace ImportSet

/-- Insert a path into a sorted list. -/
def insertSorted (path : String) : List String → List String
  | [] => [path]
  | p :: rest =>
    if path < p then path :: p :: rest
    else if path = p then p :: rest
    else p :: insertSorted path rest

/-- Add a path. -/
def insert (imports : ImportSet) (path : String) : ImportSet :=
  ⟨insertSorted path imports.paths⟩

/-- Whether a path is in the set. -/
def contains (imports : ImportSet) (path : String) : Bool :=
  imports.paths.contains path

/-- The imports that a field type calls for. -/
def ofFieldType (goType : String) : List String :=
  (if Text.contains "time.".toList goType.toList then ["time"] else []) ++
    (if Text.contains "json.RawMessage".toList goType.toList then ["encoding/json"] else [])

/-- The imports of a model with the given field types. -/
def forFieldTypes (types : List String) : ImportSet :=
  (["context", "gorm.io/gorm"] ++ types.flatMap ofFieldType).foldl insert {}

end ImportSet

/-! ## Models -/

/-- What templates see of a field. -/
structure FieldContext where
  name : String
  goType : String
  column : String
  tags : String
  comment : String
  isPrimaryKey : Bool
  deriving Repr, DecidableEq

/-- The version of the contexts. -/
def contextVersion : Nat := 1

/-- What templates see of a model. -/
structure RenderContext where
  project : String
  package : String
  fileName : String
  interfaceName : String
  structName : String
  tableName : String
  structComment : String
  primaryKeyType : String
  primaryKeyField : String
  primaryKeyColumn : String
  imports : ImportSet
  fields : List FieldContext
  deriving Repr, DecidableEq

/-- What templates see of a field. -/
def FieldContext.ofField (field : Field) : FieldContext :=
  ⟨field.name, field.goType, field.column, field.tags, field.commentLine, field.isPrimaryKey⟩

namespace RenderContext

/-- The context of a model in a project. -/
def ofModel (model : GoStruct) (project : String) : RenderContext where
  project := project
  package := model.packageName
  fileName := model.fileName
  interfaceName := model.interfaceName
  structName := model.structName
  tableName := model.tableName
  structComment := model.structComment
  primaryKeyType := model.primaryKeyType
  primaryKeyField := (model.primaryKey?.map (·.name)).getD "ID"
  primaryKeyColumn := (model.primaryKey?.map (·.column)).getD "id"
  imports := ImportSet.forFieldTypes (model.fields.map (·.goType))
  fields := model.fields.map FieldContext.ofField

/-- Why a context cannot become Go code. -/
def invalidReason? (context : RenderContext) : Option String :=
  if !Go.isExportedWord context.structName then
    some s!"'{context.structName}' is not an exported Go identifier"
  else if !Go.isPackageName context.package then
    some s!"'{context.package}' is not a valid package name"
  else if context.fields.isEmpty then
    some "no fields"
  else
    (context.fields.find? fun field => !Go.isWord field.name).map fun field =>
      s!"field '{field.name}' is not a Go identifier"

/-- Refuse a context that cannot become Go code. -/
def validate (context : RenderContext) : Except GenerateError Unit :=
  match context.invalidReason? with
  | some reason => .error (.invalidContext context.structName reason)
  | none => .ok ()

end RenderContext

/-! ## Scaffolds -/

/-- What templates see of a scaffold. -/
structure ScaffoldContext where
  project : String
  package : String
  kind : String
  name : String
  lowerName : String
  /-- The first letter of the name, the receiver of its methods. -/
  firstChar : String
  deriving Repr, DecidableEq

namespace ScaffoldContext

/-- Refuse a context that cannot become Go code. -/
def validate (context : ScaffoldContext) : Except GenerateError Unit :=
  if !Go.isExportedWord context.name then
    .error (.invalidContext context.name "name must be a Go identifier")
  else if !Go.isPackageName context.package then
    .error (.invalidContext context.name s!"'{context.package}' is not a valid package name")
  else
    .ok ()

end ScaffoldContext
end GormForge
