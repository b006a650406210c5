import GormForge.Keyed
import GormForge.Schema.Source

/-!
# Fixed schemas

A schema held in memory as a set of named tables, some of whose readings can be made to
fail.
-/

namespace GormForge

/-- The columns and indexes of a table. -/
structure TableContents where
  columns : List Column
  indexes : List Index := []
  deriving Repr, DecidableEq

/-- A fixed set of tables. -/
structure TableSet where
  dialect : Dialect := .mysql
  tables : List (String × TableContents) := []
  /-- Tables whose indexes cannot be read. -/
  failingIndexes : List String := []
  /-- Tables whose columns cannot be read. -/
  failingColumns : List String := []
  /-- Whether the tables cannot be listed. -/
  failingTables : Bool := false
  deriving Repr

namespace TableSet

/-- What the driver says about a reading that fails. -/
def failureCause (what : String) : String :=
  s!"encountered unexpected or invalid data: {what} metadata unavailable"

/-- Add a table; a known name keeps its place and takes the new contents. -/
def table (set : TableSet) (name : String) (contents : TableContents) : TableSet :=
  { set with tables := Keyed.put name contents set.tables }

/-- The contents of a table; an unknown table has none. -/
def contents (set : TableSet) (table : String) : TableContents :=
  (Keyed.get? table set.tables).getD ⟨[], []⟩

/-- The set as a schema source. -/
def source (set : TableSet) : SchemaSource where
  dialect := set.dialect
  tables :=
    if set.failingTables then
      .error (.listTables (failureCause "table"))
    else
      .ok ((Keyed.keys set.tables).mergeSort (· ≤ ·))
  columns table :=
    if set.failingColumns.contains table then
      .error (.query "columns" table (failureCause "column"))
    else
      .ok (set.contents table).columns
  indexes table :=
    if set.failingIndexes.contains table then
      .error (.query "indexes" table (failureCause "index"))
    else
      .ok (set.contents table).indexes

end TableSet
end GormForge
