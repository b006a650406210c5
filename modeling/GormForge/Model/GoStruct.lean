import GormForge.GenerateError
import GormForge.Go.Identifier
import GormForge.Model.Field
import GormForge.Schema.Source

/-!
# Models

The Go struct of a table with all that is generated around it.

**Results.**  `build` reads a table and derives its model; a table without a usable name or
without columns has none.
-/

namespace GormForge

/-- The model of a table. -/
structure GoStruct where
  /-- The common part of the names of its files. -/
  fileName : String
  interfaceName : String
  structName : String
  tableName : String
  packageName : String
  primaryKeyType : String
  fields : List Field
  deriving Repr, DecidableEq

namespace GoStruct

/-- The comment above the struct. -/
def structComment (model : GoStruct) : String :=
  if model.tableName.isEmpty then "mapped from object"
  else s!"mapped from table <{model.tableName}>"

/-- The field of the primary key. -/
def primaryKey? (model : GoStruct) : Option Field :=
  model.fields.find? (·.isPrimaryKey)

/-- Whether a struct name can be used; an empty one means that the table is left out. -/
def checkName (table name : String) : Except GenerateError Bool :=
  if name.isEmpty then .ok false
  else if Go.isExportedWord name then .ok true
  else .error (.invalidStructName table name)

/-- The names that can be used are the exported words. -/
theorem checkName_eq_ok_true_iff
    {table structName : String} :
    checkName table structName = .ok true ↔ Go.isExportedWord structName = true := by
  unfold checkName
  split
  · next hempty =>
      have hnil : structName = "" := by simpa using hempty
      simp [hnil, Go.isExportedWord, Go.isWord]
  · split
    · next hword => simp [hword]
    · next hword => simp [hword]

/-- The model of a table, from its columns and a name that can be used. -/
def ofColumns (table structName package : String) (columns : List Column)
    (naming : NamingConvention) (options : FieldOptions) : GoStruct :=
  let fields := columns.map fun column => Field.ofColumn column naming options
  { fileName := Text.lowerFirst structName
    interfaceName := Text.lowerFirst structName
    structName := structName
    tableName := table
    packageName := package
    primaryKeyType := ((fields.find? (·.isPrimaryKey)).map (·.goType)).getD GoType.int64
    fields := fields }

/-- The model of a table, from its columns. -/
def ofColumns? (table structName package : String) (columns : List Column)
    (naming : NamingConvention) (options : FieldOptions) :
    Except GenerateError (Option GoStruct) :=
  match checkName table structName with
  | .error e => .error e
  | .ok usable =>
    if !usable || columns.isEmpty then .ok none
    else .ok (some (ofColumns table structName package columns naming options))

/-- A model that columns give is the one of the columns. -/
theorem eq_of_ofColumns?
    {table structName package : String}
    {columns : List Column}
    {naming : NamingConvention}
    {options : FieldOptions}
    {model : GoStruct}
    (h : ofColumns? table structName package columns naming options = .ok (some model)) :
    model = ofColumns table structName package columns naming options := by
  unfold ofColumns? at h
  split at h
  · cases h
  · split at h
    · cases h
    · cases h
      rfl

/-- A table read into a model, and what could not be read about it. -/
structure Built where
  model : Option GoStruct := none
  warnings : List String := []
  deriving Repr, DecidableEq

/-- Read a table and derive its model. -/
def build (source : SchemaSource) (naming : NamingConvention) (options : FieldOptions)
    (package table structName : String) : Except GenerateError Built :=
  match checkName table structName with
  | .error e => .error e
  | .ok false => .ok {}
  | .ok true =>
    match source.introspect table options.indexTag with
    | .error e => .error (.schema e)
    | .ok found =>
      match ofColumns? table structName package found.columns naming options with
      | .error e => .error e
      | .ok model => .ok ⟨model, found.warnings⟩

/-- A model that a table gives is the one of the columns that were read, under a name that can be
used. -/
theorem eq_of_build
    {source : SchemaSource}
    {naming : NamingConvention}
    {options : FieldOptions}
    {package table structName : String}
    {built : Built}
    {model : GoStruct}
    (h : build source naming options package table structName = .ok built)
    (hmodel : built.model = some model) :
    Go.isExportedWord structName = true ∧
      ∃ found, source.introspect table options.indexTag = .ok found ∧
        model = ofColumns table structName package found.columns naming options := by
  unfold build at h
  split at h
  · cases h
  · cases h
    cases hmodel
  · next hname =>
      split at h
      · cases h
      · next found hfound =>
          split at h
          · cases h
          · next heq =>
              cases h
              obtain rfl : _ = some model := hmodel
              exact ⟨checkName_eq_ok_true_iff.mp hname, found, hfound, eq_of_ofColumns? heq⟩

end GoStruct
end GormForge
