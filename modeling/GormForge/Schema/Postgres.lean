import GormForge.Schema.Column
import GormForge.Text.Search

/-!
# PostgreSQL column facts

Default expressions, declared types and scan types as PostgreSQL's catalog gives them.
-/

namespace GormForge
namespace Postgres

/-- A default expression without its cast: the text before the last `::`, unless a quote
follows it. -/
def withoutCast (raw : List Char) : List Char :=
  match Text.splitLast? "::".toList raw with
  | some (value, cast) => if cast.contains '\'' then raw else value
  | none => raw

/-- The text between a pair of single quotes, any other text itself. -/
def withoutQuotes (value : List Char) : List Char :=
  (Text.between? ['\''] ['\''] value).getD value

/-- The default value of a column, and whether its default makes it a serial column. -/
def normalizeDefault : Option String → Option String × Bool
  | none => (none, false)
  | some raw =>
    if Text.beginsWith "nextval(".toList raw.toList then
      (none, true)
    else
      (some (String.ofList (withoutQuotes (withoutCast raw.toList))), false)

/-- The declared type of a column. -/
def declaredType (udt : String) (charLength precision scale : Option Int) : String :=
  match charLength, precision, scale with
  | some length, _, _ => s!"{udt}({length})"
  | none, some p, some s => if udt = "numeric" then s!"numeric({p},{s})" else udt
  | none, _, _ => udt

/-- The Go type that the driver scans a type into. -/
def scanTypeName : String → String
  | "int8" => "int64"
  | "int4" => "int32"
  | "int2" => "int16"
  | "float4" => "float32"
  | "float8" | "numeric" => "float64"
  | "bool" => "bool"
  | "bytea" => "[]uint8"
  | "date" | "time" | "timetz" | "timestamp" | "timestamptz" => "time.Time"
  | _ => "string"

end Postgres
end GormForge
