import GormForge.Naming.Singular
import GormForge.Naming.Initialism

/-!
# Naming convention

Names of tables and columns turned into names of Go structs and fields.

**Results.**  `structName` removes the table prefix once, takes the singular of the last
word unless tables are named in the singular already, and titles the words.  Columns go
through the same rule.
-/

namespace GormForge

/-- How schema names become Go names. -/
structure NamingConvention where
  /-- Removed from the front of a name that begins with it. -/
  tablePrefix : String := ""
  /-- Tables are named in the singular already. -/
  singularTable : Bool := false
  deriving Repr, DecidableEq, Inhabited

namespace NamingConvention

/-- A name without the table prefix. -/
def withoutPrefix (convention : NamingConvention) (name : String) : String :=
  match Text.afterPrefix? convention.tablePrefix.toList name.toList with
  | some rest => String.ofList rest
  | none => name

/-- The Go struct of a table. -/
def structName (convention : NamingConvention) (table : String) : String :=
  let table := convention.withoutPrefix table
  Naming.schemaName (if convention.singularTable then table else Naming.singularize table)

/-- The Go field of a column. -/
def fieldName (convention : NamingConvention) (column : String) : String :=
  convention.structName column

end NamingConvention
end GormForge
