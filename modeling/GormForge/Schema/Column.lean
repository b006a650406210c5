import GormForge.Schema.ScanKind

/-!
# Columns and indexes

One reflected column of a table, one index of a table, and the index as its member columns
see it.
-/

namespace GormForge

/-- An index as seen from one of its member columns. -/
structure ColumnIndex where
  name : String
  unique : Bool
  primaryKey : Bool
  /-- The position of the column in the index, from one. -/
  priority : Nat
  deriving Repr, DecidableEq

/-- A reflected column. -/
structure Column where
  table : String
  name : String
  /-- The name of the type, such as `VARCHAR`. -/
  databaseType : String
  /-- The type as declared, such as `varchar(64)`. -/
  columnType : String
  nullable : Bool := true
  default : Option String := none
  primaryKey : Bool := false
  autoIncrement : Bool := false
  comment : String := ""
  scanType : Option ScanType := none
  /-- Whether the scan type decides the Go type. -/
  useScanType : Bool := false
  indexes : List ColumnIndex := []
  deriving Repr, DecidableEq

/-- An index as stored in the database. -/
structure Index where
  name : String
  unique : Bool := false
  primaryKey : Bool := false
  /-- The member columns in key order. -/
  columns : List String
  deriving Repr, DecidableEq

namespace Index

/-- The position of a column in an index, from one. -/
def priorityOf? (index : Index) (column : String) : Option Nat :=
  (index.columns.findIdx? (· == column)).map (· + 1)

/-- The entry that an index contributes to a column, if the column is a member. -/
def entryFor? (index : Index) (column : String) : Option ColumnIndex :=
  (index.priorityOf? column).map fun priority =>
    ⟨index.name, index.unique, index.primaryKey, priority⟩

/-- Group rows of index name, column, uniqueness and primary flag into indexes: an index
stands where its first row stands and takes its flags from it. -/
def group (rows : List (String × String × Bool × Bool)) : List Index :=
  rows.foldl put []
where
  /-- Add one row to the indexes grouped so far. -/
  put : List Index → String × String × Bool × Bool → List Index
    | [], (name, column, unique, primaryKey) => [⟨name, unique, primaryKey, [column]⟩]
    | index :: rest, row =>
      if index.name = row.1 then
        { index with columns := index.columns ++ [row.2.1] } :: rest
      else
        index :: put rest row

end Index
end GormForge
