import GormForge.GenerateError
import GormForge.Schema.Source
import GormForge.Text.Blank

/-!
# Table filters

Which tables of a database are generated: all of them, or those of a list.

**Input.**  A star or nothing for all tables, otherwise names divided by commas.
-/

namespace GormForge

/-- A choice of tables. -/
inductive TableFilter where
  | all
  | named (tables : List String)
  deriving Repr, DecidableEq, Inhabited

namespace TableFilter

/-- The choice that a text makes. -/
def ofText (s : String) : TableFilter :=
  let cs := Text.trimChars s.toList
  if cs = [] ∨ cs = ['*'] then
    all
  else
    named ((((cs.splitOn ',').map Text.trimChars).filter (· ≠ [])).map String.ofList)

/-- The tables chosen from a database. -/
def resolve (filter : TableFilter) (source : SchemaSource) : Except GenerateError (List String) :=
  match filter with
  | all => source.tables.mapError .schema
  | named tables => .ok tables

end TableFilter
end GormForge
