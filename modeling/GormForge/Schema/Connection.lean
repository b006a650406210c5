import GormForge.Schema.Dsn
import GormForge.Schema.Sqlite.Opening

/-!
# Connections

From a data source name to a schema source.

**Results.**  `Dsn.connect` opens SQLite databases in the file tree; no server can be
reached from there.
-/

namespace GormForge

/-- Connect to a database, where `catalogOf?` tells which file contents are SQLite
databases. -/
def Dsn.connect (catalogOf? : Content → Option Sqlite.Catalog) (dsn : Dsn) :
    FileAction SchemaError SchemaSource :=
  match dsn.dialect, Sqlite.Opening.ofUrl? dsn.url with
  | .sqlite, some opening => opening.connect catalogOf?
  | dialect, _ => throw (.connect dialect)

end GormForge
