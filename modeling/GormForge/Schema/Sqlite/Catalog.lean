import GormForge.Text.Blank
import GormForge.Text.Search

/-!
# The catalog of a SQLite database

Table definitions, and what SQLite reports about them.

**Input.**  A catalog lists table definitions in the order in which they were made.

**Algorithm.**  Names of tables and columns are compared without regard to the case of ASCII
letters.  A table has an automatic index for its primary key, unless the key is the row
number itself, then one for its uniqueness constraint, unless that has the columns of the
key, and then the indexes made for it.  In a table without row numbers, the index of a key
that would be the row number comes after that of the constraint.

**Results.**  `Catalog.tableNames` lists the tables that belong to the user,
`TableDefinition.columnRows` describes columns and `TableDefinition.indexRows` indexes, the
newest first.
-/

namespace GormForge
namespace Sqlite

/-! ## Definitions -/

/-- A column as a table definition declares it. -/
structure ColumnDefinition where
  name : String
  /-- The declared type, as it is written. -/
  declaredType : String
  notNull : Bool := false
  /-- The SQL text of the default value. -/
  default : Option String := none
  deriving Repr, DecidableEq

/-- A part of the key of an index. -/
inductive KeyPart where
  | column (name : String)
  /-- An expression, which belongs to no column. -/
  | expression
  deriving Repr, DecidableEq

/-- An index that was made for a table. -/
structure IndexDefinition where
  name : String
  unique : Bool := false
  parts : List KeyPart
  deriving Repr, DecidableEq

/-- A table with its constraints and indexes. -/
structure TableDefinition where
  name : String
  columns : List ColumnDefinition
  /-- The columns of the primary key; none without a key. -/
  primaryKey : List String := []
  /-- Whether the primary key is declared at its column, in descending order. -/
  descendingKey : Bool := false
  /-- Whether rows are kept by the primary key and have no numbers. -/
  withoutRowNumbers : Bool := false
  /-- The columns of the uniqueness constraint; none without a constraint. -/
  uniqueKey : List String := []
  /-- The indexes in the order in which they were made. -/
  indexes : List IndexDefinition := []
  deriving Repr, DecidableEq

/-- The tables of a database. -/
abbrev Catalog := List TableDefinition

/-! ## Reports -/

/-- What SQLite reports about a column. -/
structure ColumnRow where
  name : String
  declaredType : String
  notNull : Bool
  default : Option String
  /-- The position in the primary key, from one; zero outside the key. -/
  keyPosition : Nat
  deriving Repr, DecidableEq

/-- What SQLite reports about an index. -/
structure IndexRow where
  name : String
  unique : Bool
  ofPrimaryKey : Bool
  /-- The columns in key order, with no name for an expression. -/
  keyColumns : List (Option String)
  deriving Repr, DecidableEq

/-- The blanks of SQL text. -/
def isSqlBlank (c : Char) : Bool :=
  c == ' ' || (9 ≤ c.toNat && c.toNat ≤ 13)

/-- A piece of SQL text without the blanks around it. -/
def sqlTrim (s : String) : String :=
  String.ofList (Text.trimBy isSqlBlank s.toList)

/-- The reported text of a default value: a parenthesized one loses its parentheses. -/
def defaultText (sql : String) : String :=
  match Text.between? ['('] [')'] (sqlTrim sql).toList with
  | some inner => sqlTrim (String.ofList inner)
  | none => sqlTrim sql

namespace TableDefinition

/-- The definition of a column that a key names. -/
def column? (table : TableDefinition) (name : String) : Option ColumnDefinition :=
  table.columns.find? fun column => Text.eqIgnoringAsciiCase column.name name

/-- The name of a column as its table declares it. -/
def declaredName (table : TableDefinition) (name : String) : String :=
  ((table.column? name).map (·.name)).getD name

/-- The primary key by declared names. -/
def keyNames (table : TableDefinition) : List String :=
  table.primaryKey.map table.declaredName

/-- The primary key as it is kept: where it keeps the rows, no name is repeated. -/
def keptNames (table : TableDefinition) : List String :=
  if table.withoutRowNumbers then table.keyNames.eraseDups else table.keyNames

/-- The position of a column in the primary key, from one; zero outside the key. -/
def keyPosition (table : TableDefinition) (column : String) : Nat :=
  ((table.keptNames.findIdx? (· == column)).map (· + 1)).getD 0

/-- The columns of a table. -/
def columnRows (table : TableDefinition) : List ColumnRow :=
  table.columns.map fun column =>
    { name := column.name
      declaredType := sqlTrim column.declaredType
      notNull :=
        column.notNull || (table.withoutRowNumbers && table.keyNames.contains column.name)
      default := column.default.map defaultText
      keyPosition := table.keyPosition column.name }

/-! ## Indexes -/

/-- Whether the primary key is a single column declared exactly as an integer, and not in
descending order. -/
def hasIntegerKey (table : TableDefinition) : Bool :=
  match table.primaryKey with
  | [name] =>
      !table.descendingKey && (table.column? name).any fun column =>
        Text.eqIgnoringAsciiCase (sqlTrim column.declaredType) "INTEGER"
  | _ => false

/-- Whether the primary key is the row number. -/
def hasRowNumberKey (table : TableDefinition) : Bool :=
  table.hasIntegerKey && !table.withoutRowNumbers

/-- The name of the automatic index with a given number. -/
def automaticName (table : TableDefinition) (number : Nat) : String :=
  s!"sqlite_autoindex_{table.name}_{number}"

/-- Whether the primary key has an index. -/
def indexesKey (table : TableDefinition) : Bool :=
  !table.primaryKey.isEmpty && !table.hasRowNumberKey

/-- The columns of the uniqueness constraint, unless they are those of a key that has an index. -/
def uniqueNames (table : TableDefinition) : List String :=
  let names := table.uniqueKey.map table.declaredName
  if table.indexesKey && names == table.keyNames then [] else names

/-- The automatic index of the primary key, with its number. -/
def keyIndexes (table : TableDefinition) (number : Nat) : List IndexRow :=
  if table.indexesKey then
    [⟨table.automaticName number, true, true, table.keptNames.map some⟩]
  else
    []

/-- The automatic index of the uniqueness constraint, with its number. -/
def uniqueIndexes (table : TableDefinition) (number : Nat) : List IndexRow :=
  if table.uniqueNames.isEmpty then []
  else [⟨table.automaticName number, true, false, table.uniqueNames.map some⟩]

/-- The automatic indexes, in the order in which they are made. -/
def automaticIndexes (table : TableDefinition) : List IndexRow :=
  if table.hasIntegerKey then
    table.uniqueIndexes 1 ++ table.keyIndexes ((table.uniqueIndexes 1).length + 1)
  else
    table.keyIndexes 1 ++ table.uniqueIndexes ((table.keyIndexes 1).length + 1)

/-- The column that a part of a key stands for. -/
def partColumn? (table : TableDefinition) : KeyPart → Option String
  | .column name => some (table.declaredName name)
  | .expression => none

/-- An index that was made for a table. -/
def madeIndex (table : TableDefinition) (index : IndexDefinition) : IndexRow :=
  ⟨index.name, index.unique, false, index.parts.map table.partColumn?⟩

/-- The indexes of a table, the newest first. -/
def indexRows (table : TableDefinition) : List IndexRow :=
  (table.automaticIndexes ++ table.indexes.map table.madeIndex).reverse

end TableDefinition

namespace Catalog

/-- The table of a name. -/
def table? (catalog : Catalog) (name : String) : Option TableDefinition :=
  catalog.find? fun table => Text.eqIgnoringAsciiCase table.name name

/-- Whether a name belongs to SQLite: the word with at least one character after it. -/
def isReserved (name : String) : Bool :=
  match Text.afterPrefix? "sqlite".toList (Text.asciiLower name).toList with
  | some rest => !rest.isEmpty
  | none => false

/-- The tables that belong to the user, sorted by name. -/
def tableNames (catalog : Catalog) : List String :=
  ((catalog.map (·.name)).filter fun name => !isReserved name).mergeSort (· ≤ ·)

/-- The columns of a table; none for an unknown table. -/
def columnRows (catalog : Catalog) (table : String) : List ColumnRow :=
  ((catalog.table? table).map (·.columnRows)).getD []

/-- The indexes of a table; none for an unknown table. -/
def indexRows (catalog : Catalog) (table : String) : List IndexRow :=
  ((catalog.table? table).map (·.indexRows)).getD []

end Catalog
end Sqlite
end GormForge
