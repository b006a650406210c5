import GormForge.Schema.Source
import GormForge.Schema.Sqlite.Catalog
import GormForge.Text.Case

/-!
# SQLite as a schema source

Columns and indexes read from what SQLite reports about a table.

**Algorithm.**  The database type is the first word of the declared type in capital
letters.  A column of the primary key is never nullable, and a key of a single column with
the type `INTEGER` counts up by itself.  Parts of an index that are expressions are left
out.

**Results.**  `source` is a catalog as a schema source; `unreadable` stands for a file that
is no database.
-/

namespace GormForge
namespace Sqlite

/-! ## Columns -/

/-- The first word of a declared type, before any blank or parenthesis. -/
def baseType (declared : String) : String :=
  Text.trim (String.ofList (declared.toList.takeWhile fun c => c != '(' && c != ' '))

/-- The value of a default, without single or double quotes around it. -/
def unquoted (value : String) : String :=
  let cs := value.toList
  let inner := (Text.between? ['\''] ['\''] cs).orElse fun _ => Text.between? ['"'] ['"'] cs
  String.ofList (inner.getD cs)

/-- Whether a column belongs to the primary key. -/
def ColumnRow.isKey (row : ColumnRow) : Bool :=
  row.keyPosition > 0

/-- One column of a table with a number of key columns. -/
def ColumnRow.toColumn (table : String) (keyColumns : Nat) (row : ColumnRow) : Column :=
  let databaseType := Text.upper (baseType row.declaredType)
  { table := table
    name := row.name
    databaseType := databaseType
    columnType := Text.lower row.declaredType
    nullable := !row.notNull && !row.isKey
    default := row.default.map unquoted
    primaryKey := row.isKey
    autoIncrement :=
      row.isKey && keyColumns == 1 && Text.eqIgnoringAsciiCase databaseType "INTEGER" }

/-- The columns of a table. -/
def columnsOfRows (table : String) (rows : List ColumnRow) : List Column :=
  rows.map (ColumnRow.toColumn table (rows.countP ColumnRow.isKey))

/-! ## Indexes -/

/-- The members of an index, one row for each of its columns. -/
def IndexRow.members (row : IndexRow) : List (String × String × Bool × Bool) :=
  row.keyColumns.filterMap fun column =>
    column.map fun name => (row.name, name, row.unique, row.ofPrimaryKey)

/-- The indexes of a table. -/
def indexesOfRows (rows : List IndexRow) : List Index :=
  Index.group (rows.flatMap IndexRow.members)

/-! ## Sources -/

/-- A catalog as a schema source. -/
def source (catalog : Catalog) : SchemaSource where
  dialect := .sqlite
  tables := .ok catalog.tableNames
  columns table := .ok (columnsOfRows table (catalog.columnRows table))
  indexes table := .ok (indexesOfRows (catalog.indexRows table))

/-- What the driver says about a file that is no database. -/
def noDatabaseCause : String :=
  "error returned from database: (code: 26) file is not a database"

/-- A file that is no database as a schema source: nothing can be read. -/
def unreadable : SchemaSource where
  dialect := .sqlite
  tables := .error (.listTables noDatabaseCause)
  columns table := .error (.query "columns" table noDatabaseCause)
  indexes table := .error (.query "indexes" table noDatabaseCause)

end Sqlite
end GormForge
