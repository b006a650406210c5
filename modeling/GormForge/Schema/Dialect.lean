import GormForge.Text.Search

/-!
# Database dialects

The kinds of database that a schema can come from, and the names people give them.
-/

namespace GormForge

/-- A kind of database. -/
inductive Dialect where
  | mysql
  | postgres
  | sqlite
  deriving Repr, DecidableEq, Inhabited

namespace Dialect

/-- The name of a dialect. -/
def name : Dialect → String
  | mysql => "mysql"
  | postgres => "postgres"
  | sqlite => "sqlite"

/-- The dialect of a url scheme, whatever the case of its letters. -/
def ofScheme? (scheme : String) : Option Dialect :=
  match Text.asciiLower scheme with
  | "mysql" | "mariadb" => some mysql
  | "postgres" | "postgresql" => some postgres
  | "sqlite" | "sqlite3" => some sqlite
  | _ => none

/-- The dialect a user names: a url scheme or the abbreviation `pg`. -/
def ofName? (s : String) : Option Dialect :=
  if Text.eqIgnoringAsciiCase s "pg" then some postgres else ofScheme? s

/-- The wording for a text that names no dialect. -/
def unknownMessage (s : String) : String :=
  s!"unknown dialect '{s}', expected mysql, postgres or sqlite"

/-- Whether the type that the driver scans into decides the Go type.  MySQL and SQLite
report loose scan types, so their declared types decide. -/
def prefersScanType : Dialect → Bool
  | postgres => true
  | _ => false

end Dialect
end GormForge
