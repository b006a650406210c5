import GormForge.Schema.Source
import Mathlib.Data.List.Forall2
import Mathlib.Tactic.Common

/-!
# Grouped index rows

What the columns of a table gain from the rows that a driver reports about its indexes.

**Input.**  Rows in any order, those of different indexes mixed, with members that are repeated or
that are no columns of the table.

**Algorithm.**  The first row opens an index, which takes all later rows of its name and no others;
without them the remaining rows are grouped in the same way.  So there is one index for each name,
and the place of a column in it is counted over the rows of that name.

**Results.**
* `Index.group_eq`: grouping gives one index for each name, put together from the rows of the name.
* `Column.map_attach_eq_foldl`: indexes may be attached one after the other.
* `Column.attach_group`: what a column gains from grouped rows, said of the rows.
-/

namespace GormForge

/-- What a driver reports about a member of an index: the name of the index, the column, whether the
index is unique and whether it is that of the primary key. -/
abbrev MemberRow := String × String × Bool × Bool

/-- A place in what is kept of a list is a place in the list, counted over what is kept. -/
theorem findIdx?_filterMap
    {α β : Type}
    (keep : α → Option β)
    (test : β → Bool)
    (items : List α) :
    (items.filterMap keep).findIdx? test =
      (items.findIdx? fun item => (keep item).any test).map fun place =>
        (items.take place).countP fun item => (keep item).isSome := by
  induction items with
  | nil => rfl
  | cons item rest ih =>
      cases hkeep : keep item with
      | none =>
          rw [List.filterMap_cons_none hkeep, ih, List.findIdx?_cons, hkeep]
          simp [Function.comp_def, hkeep]
      | some kept =>
          rw [List.filterMap_cons_some hkeep, List.findIdx?_cons, List.findIdx?_cons, ih, hkeep]
          cases htest : test kept <;> simp [Function.comp_def, hkeep, htest]

/-! ## Grouping -/

namespace Index

variable {row : MemberRow}
variable {rows : List MemberRow}
variable {name : String}

/-- The names of the indexes in the order in which they first appear. -/
def namesIn (rows : List MemberRow) : List String :=
  (rows.map Prod.fst).eraseDups

/-- The column that a row adds to the index of a name. -/
def memberOf? (name : String) (row : MemberRow) : Option String :=
  if row.1 = name then some row.2.1 else none

/-- The index of a name: the columns of all its rows, and the flags of the first one. -/
def ofRows (rows : List MemberRow) (name : String) : Index where
  name := name
  unique := (rows.find? (·.1 = name)).any (·.2.2.1)
  primaryKey := (rows.find? (·.1 = name)).any (·.2.2.2)
  columns := rows.filterMap (memberOf? name)

/-- The first index takes all rows of its name, the others share what is left. -/
theorem foldl_put_cons
    (index : Index)
    (others : List Index)
    (rows : List MemberRow) :
    rows.foldl group.put (index :: others) =
      { index with columns := index.columns ++ rows.filterMap (memberOf? index.name) } ::
        (rows.filter (·.1 ≠ index.name)).foldl group.put others := by
  induction rows generalizing index others with
  | nil => simp
  | cons row rest ih =>
      rw [List.foldl_cons, group.put]
      by_cases hname : index.name = row.1
      · rw [if_pos hname, ih]
        simp [memberOf?, hname]
      · rw [if_neg hname, ih]
        simp [memberOf?, Ne.symm hname]

theorem group_cons
    (row : MemberRow)
    (rows : List MemberRow) :
    group (row :: rows) =
      ⟨row.1, row.2.2.1, row.2.2.2, row.2.1 :: rows.filterMap (memberOf? row.1)⟩ ::
        group (rows.filter (·.1 ≠ row.1)) :=
  foldl_put_cons _ [] rows

theorem namesIn_cons
    (row : MemberRow)
    (rows : List MemberRow) :
    namesIn (row :: rows) = row.1 :: namesIn (rows.filter (·.1 ≠ row.1)) := by
  have hothers : (rows.map Prod.fst).filter (fun other => !other == row.1) =
      (rows.filter (·.1 ≠ row.1)).map Prod.fst := by
    rw [List.filter_map]
    refine congrArg _ (List.filter_congr fun other _ => ?_)
    by_cases heq : other.1 = row.1 <;> simp [heq]
  rw [namesIn, List.map_cons, List.eraseDups_cons, hothers, namesIn]

theorem mem_namesIn :
    name ∈ namesIn rows ↔ ∃ row ∈ rows, row.1 = name := by
  rw [namesIn, List.mem_eraseDups, List.mem_map]

/-- Rows of another name make no difference to an index. -/
theorem ofRows_cons_of_ne
    (rows : List MemberRow)
    (h : name ≠ row.1) :
    ofRows (row :: rows) name = ofRows (rows.filter (·.1 ≠ row.1)) name := by
  have hother : row.1 ≠ name := Ne.symm h
  have hcolumns : (row :: rows).filterMap (memberOf? name) =
      (rows.filter (·.1 ≠ row.1)).filterMap (memberOf? name) := by
    have hnone : memberOf? name row = none := if_neg hother
    rw [List.filterMap_cons_none hnone, List.filterMap_filter]
    refine List.filterMap_congr fun other _ => ?_
    by_cases heq : other.1 = name
    · simp [heq, h]
    · simp [memberOf?, heq]
  have hfirst : (row :: rows).find? (·.1 = name) =
      (rows.filter (·.1 ≠ row.1)).find? (·.1 = name) := by
    rw [List.find?_cons_of_neg (by simpa using hother), List.find?_filter]
    refine congrArg (rows.find? ·) (funext fun other => ?_)
    by_cases heq : other.1 = name <;> simp [heq, h]
  rw [ofRows, ofRows, hcolumns, hfirst]

/-- Rows are grouped into one index for each name, in the order in which the names first appear. -/
theorem group_eq
    (rows : List MemberRow) :
    group rows = (namesIn rows).map (ofRows rows) := by
  cases rows with
  | nil => rfl
  | cons row rows =>
      have hothers : ∀ name ∈ namesIn (rows.filter (·.1 ≠ row.1)), name ≠ row.1 := by
        intro name hname heq
        obtain ⟨other, hother, rfl⟩ := mem_namesIn.mp hname
        simp [heq] at hother
      rw [group_cons, namesIn_cons, List.map_cons, group_eq (rows.filter (·.1 ≠ row.1))]
      refine congrArg₂ _ ?_ (List.map_congr_left fun name hname =>
        (ofRows_cons_of_ne rows (hothers name hname)).symm)
      simp [ofRows, memberOf?]
-- the rows behind the first one are grouped without those that it takes
termination_by rows.length
decreasing_by exact Nat.lt_succ_of_le (List.length_filter_le ..)

end Index

/-! ## Attaching -/

/-- Whether a row says that a column is a member of the index of a name. -/
def MemberRow.names (name column : String) (row : MemberRow) : Bool :=
  row.1 = name && row.2.1 = column

/-- The entry that grouped rows contribute to a column, with the place counted over the rows of the
index. -/
theorem Index.entryFor?_ofRows
    (rows : List MemberRow)
    (name column : String) :
    (ofRows rows name).entryFor? column =
      (rows.findIdx? (MemberRow.names name column)).map fun place =>
        ⟨name, (ofRows rows name).unique, (ofRows rows name).primaryKey,
          (rows.take place).countP (·.1 = name) + 1⟩ := by
  have hmember : (fun row => (memberOf? name row).any (· == column)) =
      MemberRow.names name column := by
    funext row
    by_cases heq : row.1 = name
    · by_cases hcolumn : row.2.1 = column <;> simp [memberOf?, MemberRow.names, heq, hcolumn]
    · simp [memberOf?, MemberRow.names, heq]
  have hkept : (fun row => (memberOf? name row).isSome) = fun row => decide (row.1 = name) := by
    funext row
    by_cases heq : row.1 = name <;> simp [memberOf?, heq]
  rw [entryFor?, priorityOf?]
  simp only [ofRows]
  rw [findIdx?_filterMap, hmember, hkept, Option.map_map, Option.map_map]
  rfl

/-- Only an index of the rows contributes an entry. -/
theorem Index.mem_namesIn_of_entryFor?
    {rows : List MemberRow}
    {name column : String}
    {entry : ColumnIndex}
    (h : (ofRows rows name).entryFor? column = some entry) :
    name ∈ namesIn rows := by
  rw [entryFor?_ofRows] at h
  obtain ⟨place, hplace, -⟩ := Option.map_eq_some_iff.mp h
  obtain ⟨hlt, hnames, -⟩ := List.findIdx?_eq_some_iff_getElem.mp hplace
  rw [MemberRow.names, Bool.and_eq_true, decide_eq_true_iff] at hnames
  exact mem_namesIn.mpr ⟨_, List.getElem_mem hlt, hnames.1⟩

namespace Column

/-- The entries that a column gains from rows: one for each index with a row that names the column,
in the order in which the indexes first appear, with the flags of the first row of the index and
with a place that is counted over the rows of the index. -/
structure Gains (rows : List MemberRow) (column : String) (entries : List ColumnIndex) : Prop where
  names : entries.map (·.name) = (rows.map Prod.fst).eraseDups.filter fun name =>
    rows.any (MemberRow.names name column)
  flags : ∀ entry ∈ entries, ∃ first,
    rows.find? (·.1 = entry.name) = some first ∧
      entry.unique = first.2.2.1 ∧ entry.primaryKey = first.2.2.2
  priority : ∀ entry ∈ entries, ∃ place,
    rows.findIdx? (MemberRow.names entry.name column) = some place ∧
      entry.priority = 1 + (rows.take place).countP (·.1 = entry.name)

variable {rows : List MemberRow}

/-- The entries that the indexes of grouped rows contribute to a column. -/
def gained (rows : List MemberRow) (column : String) : List ColumnIndex :=
  (Index.namesIn rows).filterMap fun name => (Index.ofRows rows name).entryFor? column

theorem mem_gained
    {column : String}
    {entry : ColumnIndex} :
    entry ∈ gained rows column ↔
      (Index.ofRows rows entry.name).entryFor? column = some entry := by
  rw [gained, List.mem_filterMap]
  constructor
  · rintro ⟨name, -, hentry⟩
    obtain ⟨place, -, heq⟩ := Option.map_eq_some_iff.mp hentry
    obtain rfl : name = entry.name := congrArg ColumnIndex.name heq
    exact hentry
  · intro hentry
    exact ⟨_, Index.mem_namesIn_of_entryFor? hentry, hentry⟩

theorem gains_gained
    (rows : List MemberRow)
    (column : String) :
    Gains rows column (gained rows column) where
  names := by
    rw [gained, List.map_filterMap, ← List.filterMap_eq_filter]
    refine List.filterMap_congr fun name _ => ?_
    rw [Index.entryFor?_ofRows, Option.map_map]
    have hany : (rows.findIdx? (MemberRow.names name column)).isSome =
        rows.any (MemberRow.names name column) := List.findIdx?_isSome
    cases hplace : rows.findIdx? (MemberRow.names name column) with
    | none =>
        rw [hplace] at hany
        simp [Option.guard, ← hany]
    | some place =>
        rw [hplace] at hany
        simp [Option.guard, ← hany]
  flags entry hentry := by
    rw [mem_gained] at hentry
    have hname := Index.mem_namesIn_of_entryFor? hentry
    obtain ⟨place, -, heq⟩ := Option.map_eq_some_iff.mp hentry
    obtain ⟨first, hfirst⟩ : ∃ first, rows.find? (·.1 = entry.name) = some first := by
      rw [← Option.isSome_iff_exists, List.find?_isSome]
      simpa using Index.mem_namesIn.mp hname
    refine ⟨first, hfirst, ?_, ?_⟩
    · rw [← congrArg ColumnIndex.unique heq]
      simp [Index.ofRows, hfirst]
    · rw [← congrArg ColumnIndex.primaryKey heq]
      simp [Index.ofRows, hfirst]
  priority entry hentry := by
    rw [mem_gained, Index.entryFor?_ofRows] at hentry
    obtain ⟨place, hplace, heq⟩ := Option.map_eq_some_iff.mp hentry
    refine ⟨place, hplace, ?_⟩
    rw [← heq, Nat.add_comm]

theorem attach_group_eq
    (rows : List MemberRow)
    (column : Column) :
    attach (Index.group rows) column =
      { column with indexes := column.indexes ++ gained rows column.name } := by
  rw [attach, Index.group_eq, List.filterMap_map]
  rfl

/-- Indexes may be attached one after the other, each to all columns. -/
theorem map_attach_eq_foldl
    (indexes : List Index)
    (columns : List Column) :
    columns.map (attach indexes) =
      indexes.foldl (fun columns index => columns.map (attach [index])) columns := by
  induction indexes generalizing columns with
  | nil =>
      have hattach : attach [] = id := funext fun column => by simp [attach]
      rw [hattach, List.map_id]
      rfl
  | cons index rest ih =>
      rw [List.foldl_cons, ← ih, List.map_map]
      refine List.map_congr_left fun column _ => ?_
      cases hentry : index.entryFor? column.name <;> simp [attach, hentry]

/-- Attaching grouped rows, all at once or one index after the other, changes the indexes of the
columns and nothing else: each column keeps its place and gains, behind the indexes it has, what the
rows say of it. -/
theorem attach_group
    (rows : List MemberRow)
    (columns : List Column) :
    let attached := columns.map (attach (Index.group rows))
    attached = (Index.group rows).foldl
      (fun columns index => columns.map (attach [index])) columns ∧
    List.Forall₂
      (fun column attached => ∃ entries,
        attached = { column with indexes := column.indexes ++ entries } ∧
          Gains rows column.name entries)
      columns attached := by
  refine ⟨map_attach_eq_foldl (Index.group rows) columns, ?_⟩
  rw [List.forall₂_map_right_iff, List.forall₂_same]
  intro column _
  exact ⟨_, attach_group_eq rows column, gains_gained rows column.name⟩

/-- The index of days stands first although its row for the user comes last, and keeps the flags of
its first row. -/
example :
    gained
      [("by_day", "day", false, false), ("by_user", "user", true, false),
        ("by_day", "user", true, false), ("by_user", "user", false, false)]
      "user" =
    [⟨"by_day", false, false, 2⟩, ⟨"by_user", true, false, 1⟩] := by
  decide

end Column
end GormForge
