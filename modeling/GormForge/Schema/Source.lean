import GormForge.Schema.Column
import GormForge.Schema.Error

/-!
# Schema sources

A database whose structure can be read, and the columns of one of its tables together
with the indexes that cover them.

**Results.**  `introspect` fails when the columns cannot be read; unreadable indexes are
only a warning.
-/

namespace GormForge

/-- A database that a generator reads structure from. -/
structure SchemaSource where
  dialect : Dialect
  /-- The base tables, sorted by name. -/
  tables : Except SchemaError (List String)
  /-- The columns of a table in order; none for an unknown table. -/
  columns : String → Except SchemaError (List Column)
  /-- The indexes of a table, the primary key among them. -/
  indexes : String → Except SchemaError (List Index)

/-- The columns of one table, and what could not be read about them. -/
structure Introspection where
  columns : List Column
  warnings : List String := []
  deriving Repr, DecidableEq

/-- Attach to a column the entries of the indexes that cover it, index by index. -/
def Column.attach (indexes : List Index) (column : Column) : Column :=
  { column with indexes := column.indexes ++ indexes.filterMap (·.entryFor? column.name) }

namespace SchemaSource

/-- Settle whether the scan type of a column decides its Go type. -/
def settleScanType (dialect : Dialect) (column : Column) : Column :=
  { column with useScanType := dialect.prefersScanType && column.scanType.isSome }

/-- Read the columns of a table and, on request, attach its indexes to them. -/
def introspect (source : SchemaSource) (table : String) (withIndexes : Bool) :
    Except SchemaError Introspection :=
  match source.columns table with
  | .error e => .error e
  | .ok found =>
    let columns := found.map (settleScanType source.dialect)
    if !withIndexes || columns.isEmpty then
      .ok ⟨columns, []⟩
    else
      match source.indexes table with
      | .ok indexes => .ok ⟨columns.map (Column.attach indexes), []⟩
      | .error e =>
          .ok ⟨columns, [s!"GetIndexes for {table} error: {e.messageWithCause}"]⟩

end SchemaSource
end GormForge
