import GormForge.Model.GoStruct
import GormForge.Schema.TableSet

/-!
# Indexes that cannot be read

What a model loses when the indexes of its table cannot be read.

**Input.**  A table whose columns come without indexes and whose indexes fail to be read.

**Algorithm.**  Indexes are read only for a table with a usable name and with columns.  Where that
fails, the columns stay as they are, and an entry of a tag that would stand for an index has
nothing to stand for.

**Results.**
* `Field.ofColumn_withoutIndexTag`: the field of a column without indexes has no index entries.
* `SchemaSource.introspect_of_unreadable`: unreadable indexes leave the columns and one warning.
* `SchemaSource.exists_introspect`: a table is read whenever its columns are.
* `GoStruct.build_of_unreadable`: the model is that of a run that does not ask for indexes.
-/

namespace GormForge

variable {column : Column}
variable {columns : List Column}
variable {source : SchemaSource}
variable {table structName package : String}
variable {cause : SchemaError}

/-! ## Fields -/

/-- The options without index entries in tags. -/
def FieldOptions.withoutIndexTag (options : FieldOptions) : FieldOptions :=
  { options with indexTag := false }

namespace Field

theorem gormTagOf_withoutIndexTag
    (options : FieldOptions)
    (h : column.indexes = []) :
    gormTagOf column options.withoutIndexTag = gormTagOf column options := by
  have hentries : gormEntries column options.withoutIndexTag = gormEntries column options := by
    unfold gormEntries
    simp only [h, List.filter_nil, List.map_nil, ite_self]
    rfl
  unfold gormTagOf
  rw [hentries]

/-- The field of a column without indexes has no index entries, whether they are wanted or not. -/
theorem ofColumn_withoutIndexTag
    (naming : NamingConvention)
    (options : FieldOptions)
    (h : column.indexes = []) :
    ofColumn column naming options.withoutIndexTag = ofColumn column naming options := by
  unfold ofColumn
  rw [gormTagOf_withoutIndexTag options h]
  rfl

end Field

/-! ## Tables -/

/-- A column without what is settled only after it has been read: its indexes, and which type
decides. -/
def Column.bare (column : Column) : Column :=
  { column with useScanType := false, indexes := [] }

namespace SchemaSource

/-- The warning for a table whose indexes cannot be read. -/
def indexWarning (table : String) (cause : SchemaError) : String :=
  s!"GetIndexes for {table} error: {cause.messageWithCause}"

theorem introspect_withoutIndexes
    (hcolumns : source.columns table = .ok columns) :
    source.introspect table false = .ok ⟨columns.map (settleScanType source.dialect), []⟩ := by
  simp [introspect, hcolumns]

theorem introspect_of_readable
    {indexes : List Index}
    (hcolumns : source.columns table = .ok columns)
    (hindexes : source.indexes table = .ok indexes) :
    source.introspect table true =
      .ok ⟨(columns.map (settleScanType source.dialect)).map (Column.attach indexes), []⟩ := by
  unfold introspect
  rw [hcolumns]
  cases columns with
  | nil => rfl
  | cons column rest => simp only [hindexes, List.map_cons, List.isEmpty_cons, Bool.not_true,
      Bool.or_self, Bool.false_eq_true, if_false]

/-- Unreadable indexes leave the columns as they are and one warning, if there are columns. -/
theorem introspect_of_unreadable
    (withIndexes : Bool)
    (hcolumns : source.columns table = .ok columns)
    (hindexes : source.indexes table = .error cause) :
    source.introspect table withIndexes =
      .ok ⟨columns.map (settleScanType source.dialect),
        if withIndexes && !columns.isEmpty then [indexWarning table cause] else []⟩ := by
  unfold introspect
  rw [hcolumns]
  cases withIndexes with
  | false => simp
  | true =>
      cases columns with
      | nil => simp
      | cons column rest =>
          simp only [hindexes]
          rfl

/-- Whatever becomes of the indexes, a table is read if its columns are, and column by column it is
the same but for the indexes and for which type decides. -/
theorem exists_introspect
    (withIndexes : Bool)
    (hcolumns : source.columns table = .ok columns) :
    ∃ found, source.introspect table withIndexes = .ok found ∧
      found.columns.map Column.bare = columns.map Column.bare := by
  have hsettled : (columns.map (settleScanType source.dialect)).map Column.bare =
      columns.map Column.bare := by
    rw [List.map_map]
    rfl
  cases withIndexes with
  | false => exact ⟨_, introspect_withoutIndexes hcolumns, hsettled⟩
  | true =>
      cases hindexes : source.indexes table with
      | error cause => exact ⟨_, introspect_of_unreadable true hcolumns hindexes, hsettled⟩
      | ok indexes =>
          refine ⟨_, introspect_of_readable hcolumns hindexes, ?_⟩
          rw [List.map_map, ← hsettled]
          rfl

end SchemaSource

/-! ## Models -/

namespace GoStruct

/-- Columns without indexes give the same model, whether index entries are wanted or not. -/
theorem ofColumns?_withoutIndexTag
    (table structName package : String)
    (naming : NamingConvention)
    (options : FieldOptions)
    (h : ∀ column ∈ columns, column.indexes = []) :
    ofColumns? table structName package columns naming options.withoutIndexTag =
      ofColumns? table structName package columns naming options := by
  have hfields : (columns.map fun column => Field.ofColumn column naming options.withoutIndexTag) =
      columns.map fun column => Field.ofColumn column naming options :=
    List.map_congr_left fun column hcolumn =>
      Field.ofColumn_withoutIndexTag naming options (h column hcolumn)
  unfold ofColumns? ofColumns
  rw [hfields]

/-- Whether the indexes of a table are asked for: the options want them, the name can be used and
there are columns. -/
def asksForIndexes (options : FieldOptions) (structName : String) (columns : List Column) : Bool :=
  options.indexTag && Go.isExportedWord structName && !columns.isEmpty

/-- Unreadable indexes cost the index entries and nothing else: the result is the one of a run that
does not want them, which has no warnings, with one warning exactly if indexes were asked for. -/
theorem build_of_unreadable
    (naming : NamingConvention)
    (options : FieldOptions)
    (package structName : String)
    (hcolumns : source.columns table = .ok columns)
    (hbare : ∀ column ∈ columns, column.indexes = [])
    (hindexes : source.indexes table = .error cause) :
    build source naming options package table structName =
        (build source naming options.withoutIndexTag package table structName).map (fun built =>
          { built with warnings :=
              if asksForIndexes options structName columns then
                [SchemaSource.indexWarning table cause]
              else [] }) ∧
      ∀ built, build source naming options.withoutIndexTag package table structName = .ok built →
        built.warnings = [] := by
  have hsettled : ∀ column ∈ columns.map (SchemaSource.settleScanType source.dialect),
      column.indexes = [] := by
    intro column hcolumn
    obtain ⟨found, hfound, rfl⟩ := List.mem_map.mp hcolumn
    exact hbare found hfound
  have hmodel := ofColumns?_withoutIndexTag table structName package naming options hsettled
  have hread := SchemaSource.introspect_of_unreadable options.indexTag hcolumns hindexes
  have hplain : source.introspect table options.withoutIndexTag.indexTag =
      .ok ⟨columns.map (SchemaSource.settleScanType source.dialect), []⟩ :=
    SchemaSource.introspect_withoutIndexes hcolumns
  unfold build
  cases hname : checkName table structName with
  | error e => exact ⟨rfl, fun built h => by cases h⟩
  | ok usable =>
      cases usable with
      | false =>
          -- no usable name, so nothing is read at all
          have hword : Go.isExportedWord structName = false := by
            rw [← Bool.not_eq_true]
            intro hexported
            rw [checkName_eq_ok_true_iff.mpr hexported] at hname
            cases hname
          refine ⟨by simp [Except.map, asksForIndexes, hword], fun built h => ?_⟩
          cases h
          rfl
      | true =>
          have hword := checkName_eq_ok_true_iff.mp hname
          simp only [hread, hplain, hmodel]
          cases ofColumns? table structName package
              (columns.map (SchemaSource.settleScanType source.dialect)) naming options with
          | error e => exact ⟨rfl, fun built h => by cases h⟩
          | ok model =>
              refine ⟨by simp [Except.map, asksForIndexes, hword], fun built h => ?_⟩
              cases h
              rfl

/-- The only column of a table of orders. -/
def skuColumn : Column where
  table := "orders"
  name := "sku"
  databaseType := "varchar"
  columnType := "varchar(32)"
  nullable := false

/-- A table of orders whose unique index cannot be read. -/
def unreadableOrders : TableSet where
  tables := [("orders", ⟨[skuColumn], [{ name := "uk_sku", unique := true, columns := ["sku"] }]⟩)]
  failingIndexes := ["orders"]

/-- The model of the orders has no index entries, and a warning says why. -/
theorem orders_unindexed :
    unreadableOrders.source.columns "orders" = .ok [skuColumn] ∧
      (∀ column ∈ [skuColumn], column.indexes = []) ∧
      unreadableOrders.source.indexes "orders" =
        .error (.query "indexes" "orders" (TableSet.failureCause "index")) ∧
      build unreadableOrders.source {} {} "db" "orders" "Order" =
        .ok ⟨some (ofColumns "orders" "Order" "db" [skuColumn] {} {}),
          ["GetIndexes for orders error: failed to read indexes of table 'orders': " ++
            TableSet.failureCause "index"]⟩ := by
  have hcolumns : unreadableOrders.source.columns "orders" = .ok [skuColumn] := by rfl
  have hbare : ∀ column ∈ [skuColumn], column.indexes = [] := by decide
  have hindexes : unreadableOrders.source.indexes "orders" =
      .error (.query "indexes" "orders" (TableSet.failureCause "index")) := by
    rfl
  refine ⟨hcolumns, hbare, hindexes, ?_⟩
  rw [(build_of_unreadable {} {} "db" "Order" hcolumns hbare hindexes).1]
  rfl

end GoStruct
end GormForge
