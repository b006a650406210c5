import GormForge.Proofs.Model.Indexes
import GormForge.Proofs.Schema.Grouping
import GormForge.Schema.Sqlite.Source

/-!
# Positions in the keys of SQLite indexes

How the place of a column in an index is related to its position in the key.

**Input.**  What SQLite reports about a table: its columns, and its indexes with the parts of their
keys in order, where an expression has no name.

**Algorithm.**  Expressions are left out before the parts are grouped, and places are counted over
what is left.  Indexes have different names, so that the rows of a name are the columns of one key.

**Results.**
* `IndexRow.priorityOf?_ofRows`: the place of a column is its position without the expressions that
  stand before it.
* `priority_eq_position_iff`: the place is the position exactly if no expression stands before the
  column.
-/

namespace GormForge
namespace Sqlite

/-! ## Keys -/

namespace IndexRow

variable {indexes : List IndexRow}
variable {index : IndexRow}
variable {name : String}

/-- The position of a column among all parts of the key of an index, from one. -/
def position? (index : IndexRow) (column : String) : Option Nat :=
  (index.keyColumns.findIdx? (· == some column)).map (· + 1)

/-- The number of expressions that stand before a position in the key of an index. -/
def expressionsBefore (index : IndexRow) (position : Nat) : Nat :=
  (index.keyColumns.take (position - 1)).countP (·.isNone)

theorem filterMap_members
    (index : IndexRow)
    (name : String) :
    index.members.filterMap (Index.memberOf? name) =
      if index.name = name then index.keyColumns.filterMap id else [] := by
  rw [members, List.filterMap_filterMap]
  split
  · next hname =>
      refine List.filterMap_congr fun part _ => ?_
      cases part <;> simp [Index.memberOf?, hname]
  · next hname =>
      rw [List.filterMap_eq_nil_iff]
      intro part _
      cases part <;> simp [Index.memberOf?, hname]

/-- The rows of a name are those of the one index that has it. -/
theorem filterMap_flatMap_members
    (hnames : (indexes.map (·.name)).Nodup)
    (hindex : index ∈ indexes) :
    (indexes.flatMap members).filterMap (Index.memberOf? index.name) =
      index.keyColumns.filterMap id := by
  induction indexes with
  | nil => cases hindex
  | cons first rest ih =>
      obtain ⟨hfirst, hrest⟩ := List.nodup_cons.mp hnames
      rw [List.flatMap_cons, List.filterMap_append, filterMap_members]
      rcases List.mem_cons.mp hindex with rfl | hmem
      · have hothers : (rest.flatMap members).filterMap (Index.memberOf? index.name) = [] := by
          rw [List.filterMap_flatMap, List.flatMap_eq_nil_iff]
          intro other hother
          rw [filterMap_members, if_neg]
          exact fun heq => hfirst (List.mem_map.mpr ⟨other, hother, heq⟩)
        rw [if_pos rfl, hothers, List.append_nil]
      · have hne : first.name ≠ index.name := fun heq =>
          hfirst (List.mem_map.mpr ⟨index, hmem, heq.symm⟩)
        rw [if_neg hne, List.nil_append]
        exact ih hrest hmem

/-- The place of a column in a grouped index is its position in the key without the expressions that
stand before it. -/
theorem priorityOf?_ofRows
    (hnames : (indexes.map (·.name)).Nodup)
    (hindex : index ∈ indexes)
    (column : String) :
    (Index.ofRows (indexes.flatMap members) index.name).priorityOf? column =
      (index.position? column).map fun position =>
        position - index.expressionsBefore position := by
  have htest : (fun part : Option String => (id part).any (· == column)) = (· == some column) := by
    funext part
    cases part <;> rfl
  simp only [Index.priorityOf?, Index.ofRows, position?]
  rw [filterMap_flatMap_members hnames hindex, findIdx?_filterMap, htest, Option.map_map,
    Option.map_map]
  refine Option.map_congr fun place hplace => ?_
  obtain ⟨hlt, -⟩ := List.findIdx?_eq_some_iff_getElem.mp hplace
  have hnone : (fun part : Option String => decide (¬ part.isSome = true)) = (·.isNone) := by
    funext part
    cases part <;> rfl
  have hparts : (index.keyColumns.take place).length =
      (index.keyColumns.take place).countP (·.isSome) +
        (index.keyColumns.take place).countP (·.isNone) := by
    rw [← hnone]
    exact List.length_eq_countP_add_countP _
  rw [List.length_take_of_le (Nat.le_of_lt hlt)] at hparts
  simp only [Function.comp_apply, expressionsBefore, Nat.add_sub_cancel, id]
  omega

theorem expressionsBefore_lt
    {column : String}
    {position : Nat}
    (h : index.position? column = some position) :
    index.expressionsBefore position < position := by
  obtain ⟨place, hplace, rfl⟩ := Option.map_eq_some_iff.mp h
  rw [expressionsBefore, Nat.add_sub_cancel]
  exact Nat.lt_succ_of_le (Nat.le_trans List.countP_le_length (List.length_take_le ..))

end IndexRow

/-! ## Introspection -/

variable {schema : SchemaSource}
variable {table : String}
variable {columnRows : List ColumnRow}
variable {indexRows : List IndexRow}

/-- An index with a column in its key contributes one entry, with the place counted without
expressions. -/
theorem exists_gained
    {index : IndexRow}
    {column : String}
    {position : Nat}
    (hnames : (indexRows.map (·.name)).Nodup)
    (hindex : index ∈ indexRows)
    (hposition : index.position? column = some position) :
    ∃ entry ∈ Column.gained (indexRows.flatMap IndexRow.members) column,
      entry.name = index.name ∧
        (∀ other ∈ Column.gained (indexRows.flatMap IndexRow.members) column,
          other.name = index.name → other = entry) ∧
        entry.priority = position - index.expressionsBefore position := by
  have hplace := IndexRow.priorityOf?_ofRows hnames hindex column
  rw [hposition, Option.map_some] at hplace
  obtain ⟨entry, hentry, hname, hpriority⟩ : ∃ entry,
      (Index.ofRows (indexRows.flatMap IndexRow.members) index.name).entryFor? column = some entry ∧
        entry.name = index.name ∧
          entry.priority = position - index.expressionsBefore position := by
    rw [Index.entryFor?, hplace]
    exact ⟨_, rfl, rfl, rfl⟩
  refine ⟨entry, ?_, hname, fun other hother hsame => ?_, hpriority⟩
  · rw [Column.mem_gained, hname]
    exact hentry
  · rw [Column.mem_gained, hsame, hentry] at hother
    exact (Option.some.inj hother).symm

/-- Only an index with a column in its key contributes an entry. -/
theorem exists_index_of_mem_gained
    {column : String}
    {entry : ColumnIndex}
    (hnames : (indexRows.map (·.name)).Nodup)
    (hentry : entry ∈ Column.gained (indexRows.flatMap IndexRow.members) column) :
    ∃ index ∈ indexRows, entry.name = index.name ∧ (index.position? column).isSome := by
  rw [Column.mem_gained] at hentry
  obtain ⟨row, hrow, hname⟩ := Index.mem_namesIn.mp (Index.mem_namesIn_of_entryFor? hentry)
  obtain ⟨index, hindex, hmember⟩ := List.mem_flatMap.mp hrow
  have hindexName : index.name = entry.name := by
    obtain ⟨part, -, hpart⟩ := List.mem_filterMap.mp hmember
    obtain ⟨member, -, rfl⟩ := Option.map_eq_some_iff.mp hpart
    exact hname
  obtain ⟨place, hplace, -⟩ := Option.map_eq_some_iff.mp hentry
  rw [← hindexName, IndexRow.priorityOf?_ofRows hnames hindex] at hplace
  obtain ⟨position, hposition, -⟩ := Option.map_eq_some_iff.mp hplace
  exact ⟨index, hindex, hindexName.symm, by rw [hposition]; rfl⟩

/-- A table whose columns and indexes are reported is read, and its columns have the entries that
the members of the indexes give them. -/
theorem exists_introspect_gained
    (hcolumns : schema.columns table = .ok (columnsOfRows table columnRows))
    (hindexes : schema.indexes table = .ok (indexesOfRows indexRows)) :
    ∃ found, schema.introspect table true = .ok found ∧
      found.columns.map (·.name) = columnRows.map (·.name) ∧
      ∀ column ∈ found.columns,
        column.indexes = Column.gained (indexRows.flatMap IndexRow.members) column.name := by
  refine ⟨_, SchemaSource.introspect_of_readable hcolumns hindexes, ?_, ?_⟩
  · simp only [columnsOfRows, List.map_map]
    rfl
  · intro column hcolumn
    obtain ⟨settled, hsettled, rfl⟩ := List.mem_map.mp hcolumn
    obtain ⟨read, hread, rfl⟩ := List.mem_map.mp hsettled
    obtain ⟨row, -, rfl⟩ := List.mem_map.mp hread
    rw [indexesOfRows, Column.attach_group_eq]
    rfl

/-- The place of a column in an index is its position in the key exactly if no expression stands
before it.  Every index with a column in its key contributes one entry to the column, and no other
entries are attached; the place in the entry is the position without the expressions before the
column. -/
theorem priority_eq_position_iff
    (hcolumns : schema.columns table = .ok (columnsOfRows table columnRows))
    (hindexes : schema.indexes table = .ok (indexesOfRows indexRows))
    (hnames : (indexRows.map (·.name)).Nodup) :
    ∃ found, schema.introspect table true = .ok found ∧
      found.columns.map (·.name) = columnRows.map (·.name) ∧
      ∀ column ∈ found.columns,
        (∀ entry ∈ column.indexes, ∃ index ∈ indexRows,
          entry.name = index.name ∧ (index.position? column.name).isSome) ∧
        ∀ index ∈ indexRows, ∀ position, index.position? column.name = some position →
          ∃ entry ∈ column.indexes,
            entry.name = index.name ∧
            (∀ other ∈ column.indexes, other.name = index.name → other = entry) ∧
            entry.priority = position - index.expressionsBefore position ∧
            (entry.priority = position ↔ index.expressionsBefore position = 0) := by
  obtain ⟨found, hfound, hcolumnNames, hgained⟩ := exists_introspect_gained hcolumns hindexes
  refine ⟨found, hfound, hcolumnNames, fun column hcolumn => ?_⟩
  rw [hgained column hcolumn]
  refine ⟨fun entry hentry => exists_index_of_mem_gained hnames hentry,
    fun index hindex position hposition => ?_⟩
  obtain ⟨entry, hentry, hname, honly, hpriority⟩ := exists_gained hnames hindex hposition
  have hlt := IndexRow.expressionsBefore_lt hposition
  exact ⟨entry, hentry, hname, honly, hpriority, by omega⟩

/-- A table of addresses with expressions in the keys of its indexes, once after the first column
and once before it. -/
def addresses : TableDefinition where
  name := "addresses"
  columns := [
    { name := "city", declaredType := "TEXT" },
    { name := "street", declaredType := "TEXT" }]
  indexes := [⟨"by_city", true, [.column "city", .expression, .column "street"]⟩,
    ⟨"by_street", false, [.expression, .column "street"]⟩]

/-- What is reported about the index that begins with a column. -/
def byCity : IndexRow :=
  ⟨"by_city", true, false, [some "city", none, some "street"]⟩

/-- The city keeps its position in the index, and the street has the second place at position three.
-/
theorem addresses_places :
    ((Catalog.indexRows [addresses] "addresses").map (·.name)).Nodup ∧
      byCity ∈ Catalog.indexRows [addresses] "addresses" ∧
      byCity.position? "city" = some 1 ∧ byCity.position? "street" = some 3 ∧
      ∃ found, (source [addresses]).introspect "addresses" true = .ok found ∧
        ∀ column ∈ found.columns,
          (column.name = "city" → ∃ entry ∈ column.indexes,
            entry.name = "by_city" ∧ entry.priority = 1) ∧
          (column.name = "street" → ∃ entry ∈ column.indexes,
            entry.name = "by_city" ∧ entry.priority = 2 ∧ entry.priority ≠ 3) := by
  have hnames : ((Catalog.indexRows [addresses] "addresses").map (·.name)).Nodup := by
    decide +kernel
  have hindex : byCity ∈ Catalog.indexRows [addresses] "addresses" := by decide +kernel
  have hcity : byCity.position? "city" = some 1 := by decide
  have hstreet : byCity.position? "street" = some 3 := by decide
  have hbeforeCity : byCity.expressionsBefore 1 = 0 := by decide
  have hbeforeStreet : byCity.expressionsBefore 3 = 1 := by decide
  have hcolumns : (source [addresses]).columns "addresses" =
      .ok (columnsOfRows "addresses" (Catalog.columnRows [addresses] "addresses")) := rfl
  have hindexes : (source [addresses]).indexes "addresses" =
      .ok (indexesOfRows (Catalog.indexRows [addresses] "addresses")) := rfl
  obtain ⟨found, hfound, -, hplaces⟩ := priority_eq_position_iff hcolumns hindexes hnames
  refine ⟨hnames, hindex, hcity, hstreet, found, hfound, fun column hcolumn => ⟨?_, ?_⟩⟩
  · intro hname
    obtain ⟨entry, hentry, hentryName, -, -, hiff⟩ :=
      (hplaces column hcolumn).2 byCity hindex 1 (by rw [hname, hcity])
    exact ⟨entry, hentry, hentryName, hiff.mpr hbeforeCity⟩
  · intro hname
    obtain ⟨entry, hentry, hentryName, -, hpriority, hiff⟩ :=
      (hplaces column hcolumn).2 byCity hindex 3 (by rw [hname, hstreet])
    rw [hbeforeStreet] at hpriority hiff
    exact ⟨entry, hentry, hentryName, hpriority, fun heq => absurd (hiff.mp heq) (by decide)⟩

/-- The street has the first place in an index whose key begins with an expression, although it is
the second part of the key. -/
theorem street_second_place_one :
    ∃ found, (source [addresses]).introspect "addresses" true = .ok found ∧
      ∃ column ∈ found.columns, ∃ index ∈ Catalog.indexRows [addresses] "addresses",
        ∃ entry ∈ column.indexes,
          entry.name = index.name ∧ index.position? column.name = some 2 ∧ entry.priority = 1 := by
  refine ⟨_, rfl, ?_⟩
  decide +kernel

end Sqlite
end GormForge
