import GormForge.Text.Blank
import GormForge.Text.Case
import GormForge.Text.Search

/-!
# Go types of columns

The Go type for a column, from the driver's name of its type and the type as declared.

**Results.**  `resolve` is total: a type it does not know is a string.
-/

namespace GormForge
namespace GoType

/-- The type of columns that mark soft deletion. -/
def softDelete : String := "gorm.DeletedAt"

/-- The type of points in time. -/
def time : String := "time.Time"

/-- The type of keys and of whole numbers. -/
def int64 : String := "int64"

/-- The Go types of the families of type names, in lower case. -/
def families : List (String × List String) := [
    ("int64", ["numeric", "integer", "int", "smallint", "mediumint", "bigint", "year"]),
    ("float64", ["float", "real", "double", "decimal"]),
    ("string", ["char", "varchar", "tinytext", "mediumtext", "longtext", "text", "json", "enum"]),
    ("[]byte", ["binary", "varbinary", "tinyblob", "blob", "mediumblob", "longblob"]),
    ("time.Time", ["time", "date", "datetime", "timestamp"]),
    ("[]uint8", ["bit"]),
    ("bool", ["boolean"])
  ]

/-- The Go type of a `tinyint` column: with a width of one it holds a truth value. -/
def ofTinyint (detail : String) : String :=
  if Text.beginsWith "tinyint(1)".toList (Text.lower (Text.trim detail)).toList then
    "bool"
  else
    "int32"

/-- The Go type of a column, whatever the case of its type's name. -/
def resolve (databaseType detail : String) : String :=
  let name := Text.lower databaseType
  if name = "tinyint" then
    ofTinyint detail
  else
    match families.find? (·.2.contains name) with
    | some family => family.1
    | none => "string"

end GoType
end GormForge
