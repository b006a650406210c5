import GormForge.Schema.Dialect

/-!
# Failures of a schema source

What can go wrong between a connection string and the columns of a table, and how each
failure is worded.
-/

namespace GormForge

/-- A failure to reach or to read a schema. -/
inductive SchemaError where
  | emptyDsn
  | unsupportedDsn (scheme : String)
  | connect (dialect : Dialect)
  | query (what table cause : String)
  | listTables (cause : String)
  deriving Repr, DecidableEq

namespace SchemaError

/-- The wording of a failure. -/
def message : SchemaError → String
  | emptyDsn => "dsn cannot be empty"
  | unsupportedDsn scheme => s!"unsupported data source '{scheme}'"
  | connect dialect => s!"failed to connect to {dialect.name} database"
  | query what table _ => s!"failed to read {what} of table '{table}'"
  | listTables _ => "failed to list tables"

/-- The diagnostic code of a failure. -/
def code : SchemaError → String
  | emptyDsn => "kun::schema::empty_dsn"
  | unsupportedDsn _ => "kun::schema::unsupported_dsn"
  | connect _ => "kun::schema::connect"
  | query _ _ _ => "kun::schema::query"
  | listTables _ => "kun::schema::list_tables"

/-- The advice that goes with a failure. -/
def help : SchemaError → Option String
  | unsupportedDsn _ =>
      some "use a mysql://, postgres:// or sqlite: url, a user:pass@tcp(host:port)/db dsn, or pass --dialect"
  | _ => none

/-- What the driver said, where it said anything. -/
def cause : SchemaError → Option String
  | query _ _ cause => some cause
  | listTables cause => some cause
  | _ => none

/-- The wording with the driver's own words after it. -/
def messageWithCause (e : SchemaError) : String :=
  match e.cause with
  | some cause => s!"{e.message}: {cause}"
  | none => e.message

end SchemaError
end GormForge
