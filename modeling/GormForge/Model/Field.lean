import GormForge.Model.GoType
import GormForge.Naming.Convention
import GormForge.Naming.IdCasing
import GormForge.Schema.Column

/-!
# Fields

The Go struct field of a column.

**Algorithm.**  The base type comes from the driver's scan type or from the declared type,
the pointer from nullability or from a default worth declaring, and the struct tag from
the facts of the column in a fixed order.

**Results.**  `ofColumn` is the field, `tags` the body of its struct tag.
-/

namespace GormForge

/-- How columns become fields. -/
structure FieldOptions where
  /-- Nullable columns become pointers. -/
  nullable : Bool := true
  /-- Columns with a default worth declaring become pointers. -/
  coverable : Bool := false
  /-- Unsigned integer columns become unsigned. -/
  signable : Bool := false
  indexTag : Bool := true
  typeTag : Bool := true
  idCasing : IdCasing := .legacy
  deriving Repr, DecidableEq, Inhabited

/-- A field of a generated struct. -/
structure Field where
  name : String
  goType : String
  column : String
  gormTag : String
  jsonTag : String
  comment : String
  isPrimaryKey : Bool
  deriving Repr, DecidableEq

namespace Field

/-! ## Defaults -/

/-- The default of a column as it stands in a tag; blanks are quoted. -/
def defaultText (column : Column) : String :=
  match column.default with
  | none => ""
  | some value =>
    if !value.isEmpty && (Text.trimChars value.toList).isEmpty then s!"'{value}'" else value

/-- Whether a character says nothing in the default of a point in time. -/
def isZeroTimeChar (c : Char) : Bool :=
  ['\'', '0', ':', '-', ' '].contains c

/-- Whether a default is worth declaring for values of a class. -/
def declaresDefault (column : Column) (kind : ScanKind) (value : String) : Bool :=
  if value.isEmpty then
    false
  else if kind.isNumeric then
    value != "0"
  else
    match kind with
    | .bool => value != "false"
    | .string => true
    | .struct => !(Text.trimBy isZeroTimeChar value.toList).isEmpty
    | _ =>
      !Text.eqIgnoringAsciiCase column.name "created_at" &&
        !Text.eqIgnoringAsciiCase column.name "updated_at"

/-! ## Types -/

/-- The class of the values that the driver reads from a column of a given base type. -/
def scanKindOf (column : Column) (base : String) : ScanKind :=
  match column.scanType with
  | some scan => scan.kind
  | none =>
    if Text.eqIgnoringAsciiCase column.databaseType "tinyint" then .int
    else ScanKind.ofGoType base

/-- The Go type of a column before it is made unsigned. -/
def signedType (column : Column) : String :=
  match column.useScanType, column.scanType with
  | true, some scan => scan.name
  | _, _ => GoType.resolve column.databaseType column.columnType

/-- The Go type of a column before any pointer. -/
def baseType (column : Column) (options : FieldOptions) : String :=
  let signed := signedType column
  if options.signable && Text.contains "unsigned".toList column.columnType.toList &&
      Text.beginsWith "int".toList signed.toList then
    "u" ++ signed
  else
    signed

/-- Whether a column has a default worth declaring. -/
def hasDefault (column : Column) (options : FieldOptions) : Bool :=
  declaresDefault column (scanKindOf column (baseType column options)) (defaultText column)

/-- The Go type of the field of a column. -/
def typeOf (column : Column) (options : FieldOptions) : String :=
  let base := baseType column options
  if column.name = "deleted_at" ∧ base = GoType.time then
    GoType.softDelete
  else if (options.coverable && hasDefault column options) ||
      (options.nullable && column.nullable) then
    "*" ++ base
  else
    base

/-! ## Tags -/

/-- The entry of an index in a tag. -/
def indexEntry (index : ColumnIndex) : String :=
  let kind := if index.unique then "uniqueIndex" else "index"
  s!"{kind}:{index.name},priority:{index.priority}"

/-- The entries of a column's tag, in order. -/
def gormEntries (column : Column) (options : FieldOptions) : List String :=
  ["column:" ++ column.name] ++
    (if options.typeTag then ["type:" ++ column.columnType] else []) ++
    (if column.primaryKey then ["primaryKey", s!"autoIncrement:{column.autoIncrement}"]
      else if column.nullable then [] else ["not null"]) ++
    (if options.indexTag then
        (column.indexes.filter fun index => !index.primaryKey).map indexEntry
      else []) ++
    (if hasDefault column options && !column.primaryKey then
        ["default:" ++ defaultText column]
      else [])

/-- The tag of a column. -/
def gormTagOf (column : Column) (options : FieldOptions) : String :=
  String.intercalate ";" (gormEntries column options)

/-- The Go name of the field of a column. -/
def nameOf (column : Column) (naming : NamingConvention) (options : FieldOptions) : String :=
  options.idCasing.apply (naming.fieldName column.name)

/-- The field of a column. -/
def ofColumn (column : Column) (naming : NamingConvention) (options : FieldOptions) : Field where
  name := nameOf column naming options
  goType := typeOf column options
  column := column.name
  gormTag := gormTagOf column options
  jsonTag := Text.lowerFirst (nameOf column naming options)
  comment := column.comment
  isPrimaryKey := column.primaryKey

/-- One key and its quoted value in a struct tag; an empty value leaves no trace. -/
def tagPart (key value : String) : List String :=
  if value.isEmpty then [] else [key ++ ":\"" ++ value ++ "\""]

/-- The body of the struct tag. -/
def tags (field : Field) : String :=
  String.intercalate " " (tagPart "gorm" field.gormTag ++ tagPart "json" field.jsonTag)

/-- The comment behind the field on one line; a column without one has none. -/
def commentLine (field : Field) : String :=
  if field.comment.isEmpty then
    ""
  else
    "// " ++ field.comment.map fun c => if c = '\r' ∨ c = '\n' then ' ' else c

end Field
end GormForge
