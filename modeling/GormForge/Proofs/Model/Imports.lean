import GormForge.Model.Context
import GormForge.Proofs.Model.Options
import GormForge.Schema.Postgres
import Mathlib.Data.String.Basic

/-!
# Imports

Which packages the fields of a model refer to, and which ones its file imports.

**Input.**  Columns without a scan type, or with the scan type of a PostgreSQL type.

**Algorithm.**  The types of fields are searched for the names of packages.  A column has one of a
few types before its type is made unsigned or a pointer, so that the search can be followed on
each of them; what is found is put into the list one by one, each in its place.

**Results.**
* `ImportSet.mem_forFieldTypes`, `ImportSet.pairwise_forFieldTypes`: what is imported and in which
  order, for field types of any kind.
* `Field.typeOf_mem`: the types that fields can have.
* `RenderContext.imports_match`: the imports of a model fit its fields.
-/

namespace GormForge

/-! ## Packages -/

namespace Go

/-- The words of a text that stand directly before a dot, where `word` has been read last. -/
def qualifiersFrom : List Char → List Char → List String
  | _, [] => []
  | word, c :: cs =>
    if c = '.' then String.ofList word :: qualifiersFrom [] cs
    else if isWordChar c then qualifiersFrom (word ++ [c]) cs
    else qualifiersFrom [] cs

/-- The names of packages in a Go type: the words directly before its dots. -/
def qualifiers (goType : String) : List String :=
  qualifiersFrom [] goType.toList

/-- The name of the package at an import path: what follows the last slash. -/
def packageAt (path : String) : String :=
  String.ofList (path.toList.reverse.takeWhile (· != '/')).reverse

end Go

/-! ## Sets of imports -/

namespace ImportSet

variable {imports : ImportSet}
variable {path other : String}
variable {paths types : List String}

theorem mem_insertSorted :
    other ∈ insertSorted path paths ↔ other = path ∨ other ∈ paths := by
  induction paths with
  | nil => simp [insertSorted]
  | cons p rest ih =>
      rw [insertSorted]
      split
      · exact List.mem_cons
      · split
        · next heq => simp [heq]
        · rw [List.mem_cons, ih, List.mem_cons, or_left_comm]

/-- A path is put where the order wants it. -/
theorem pairwise_insertSorted
    (h : paths.Pairwise (· < ·)) :
    (insertSorted path paths).Pairwise (· < ·) := by
  induction paths with
  | nil => exact List.pairwise_singleton _ _
  | cons p rest ih =>
      obtain ⟨hfirst, hrest⟩ := List.pairwise_cons.mp h
      rw [insertSorted]
      split
      · next hbefore =>
          refine List.pairwise_cons.mpr ⟨fun other hother => ?_, h⟩
          rcases List.mem_cons.mp hother with rfl | hother
          · exact hbefore
          · exact lt_trans hbefore (hfirst other hother)
      · split
        · exact h
        · next hnot hne =>
            refine List.pairwise_cons.mpr ⟨fun other hother => ?_, ih hrest⟩
            rcases mem_insertSorted.mp hother with rfl | hother
            · exact lt_of_le_of_ne (not_lt.mp hnot) (Ne.symm hne)
            · exact hfirst other hother

theorem mem_foldl_insert :
    other ∈ (paths.foldl insert imports).paths ↔ other ∈ paths ∨ other ∈ imports.paths := by
  induction paths generalizing imports with
  | nil => simp
  | cons path rest ih =>
      rw [List.foldl_cons, ih, insert, mem_insertSorted, List.mem_cons, or_left_comm, or_assoc]

theorem pairwise_foldl_insert
    (h : imports.paths.Pairwise (· < ·)) :
    (paths.foldl insert imports).paths.Pairwise (· < ·) := by
  induction paths generalizing imports with
  | nil => exact h
  | cons path rest ih => exact ih (pairwise_insertSorted h)

/-- The imports of field types: two for all models, and those that a field type calls for. -/
theorem mem_forFieldTypes :
    path ∈ (forFieldTypes types).paths ↔
      path ∈ ["context", "gorm.io/gorm"] ∨ ∃ goType ∈ types, path ∈ ofFieldType goType := by
  rw [forFieldTypes, mem_foldl_insert, List.mem_append, List.mem_flatMap]
  simp

theorem pairwise_forFieldTypes
    (types : List String) :
    (forFieldTypes types).paths.Pairwise (· < ·) :=
  pairwise_foldl_insert List.Pairwise.nil

/-- All paths that a model can import. -/
def known : List String :=
  ["context", "gorm.io/gorm", "time", "encoding/json"]

/-- The imports of a model are known. -/
theorem mem_known
    (h : path ∈ (forFieldTypes types).paths) :
    path ∈ known := by
  have hbase : ∀ path ∈ ["context", "gorm.io/gorm"], path ∈ known := by decide
  rcases mem_forFieldTypes.mp h with h | ⟨goType, -, h⟩
  · exact hbase path h
  · unfold ofFieldType at h
    rcases List.mem_append.mp h with h | h
    · split at h
      · rw [List.mem_singleton.mp h]
        decide
      · cases h
    · split at h
      · rw [List.mem_singleton.mp h]
        decide
      · cases h

end ImportSet

/-! ## Types of fields -/

/-- A column without a scan type, or with the one of a PostgreSQL type. -/
def Column.ScansPostgres (column : Column) : Prop :=
  ∀ scan, column.scanType = some scan →
    ∃ udt, scan = ScanType.ofName (Postgres.scanTypeName udt)

namespace GoType

/-- The types of columns before they are made unsigned or pointers. -/
def signed : List String :=
  resolved ++ ["int16", "float32"]

theorem scanTypeName_mem
    (udt : String) :
    Postgres.scanTypeName udt ∈ signed := by
  unfold Postgres.scanTypeName
  split <;> decide

/-- The types of fields: that of soft deletion, and those of columns, signed or unsigned, as they
are or as pointers. -/
def ofFields : List String :=
  softDelete :: ["", "*"].flatMap fun mark =>
    (signed ++ (signed.filter fun goType => Text.beginsWith "int".toList goType.toList).map
      ("u" ++ ·)).map (mark ++ ·)

/-- The types of fields that hold a point in time. -/
def times : List String :=
  ["time.Time", "*time.Time"]

/-- Of the types of fields, those of points in time call for an import of their own. -/
theorem ofFieldType_eq :
    ∀ goType ∈ ofFields,
      ImportSet.ofFieldType goType = if goType ∈ times then ["time"] else [] := by
  decide +kernel

/-- The types of fields refer to two packages, and to that of time where they hold a point in
time. -/
theorem qualifiers_mem :
    ∀ goType ∈ ofFields, ∀ package ∈ Go.qualifiers goType,
      package = Go.packageAt "gorm.io/gorm" ∨ (package = Go.packageAt "time" ∧ goType ∈ times) := by
  decide +kernel

end GoType

namespace Field

variable {column : Column}

theorem signedType_mem
    (h : column.ScansPostgres) :
    signedType column ∈ GoType.signed := by
  have hresolved : GoType.resolve column.databaseType column.columnType ∈ GoType.signed :=
    List.mem_append_left _ (GoType.resolve_mem _ _)
  rw [signedType]
  split
  · next scan _ hscan =>
      obtain ⟨udt, rfl⟩ := h scan hscan
      exact GoType.scanTypeName_mem udt
  · exact hresolved

theorem baseType_mem
    (h : column.ScansPostgres)
    (options : FieldOptions) :
    baseType column options ∈
      GoType.signed ++ (GoType.signed.filter fun goType =>
        Text.beginsWith "int".toList goType.toList).map ("u" ++ ·) := by
  rw [baseType_eq]
  split
  · next hunsigned =>
      rw [Bool.and_eq_true, isUnsigned, Bool.and_eq_true] at hunsigned
      refine List.mem_append_right _ (List.mem_map_of_mem (List.mem_filter.mpr ?_))
      exact ⟨signedType_mem h, hunsigned.2.2⟩
  · exact List.mem_append_left _ (signedType_mem h)

/-- The type of the field of a column is among the types of fields. -/
theorem typeOf_mem
    (h : column.ScansPostgres)
    (options : FieldOptions) :
    typeOf column options ∈ GoType.ofFields := by
  rw [typeOf_eq]
  split
  · exact List.mem_cons_self ..
  · refine List.mem_cons_of_mem _ (List.mem_flatMap.mpr ?_)
    exact ⟨_, pointerMark_mem column options, List.mem_map_of_mem (baseType_mem h options)⟩

end Field

/-! ## Models -/

namespace ImportSet

variable {path : String}
variable {types : List String}

/-- The imports of types of fields: that of time joins the two for all models exactly if one of the
types holds a point in time. -/
theorem mem_forFieldTypes_iff
    (h : ∀ goType ∈ types, goType ∈ GoType.ofFields) :
    path ∈ (forFieldTypes types).paths ↔
      path ∈ ["context", "gorm.io/gorm"] ∨
        path = "time" ∧ ∃ goType ∈ types, goType ∈ GoType.times := by
  rw [mem_forFieldTypes]
  refine or_congr_right ⟨?_, ?_⟩
  · rintro ⟨goType, hgoType, hpath⟩
    rw [GoType.ofFieldType_eq goType (h goType hgoType)] at hpath
    split at hpath
    · next htime => exact ⟨List.mem_singleton.mp hpath, goType, hgoType, htime⟩
    · cases hpath
  · rintro ⟨rfl, goType, hgoType, htime⟩
    refine ⟨goType, hgoType, ?_⟩
    rw [GoType.ofFieldType_eq goType (h goType hgoType), if_pos htime]
    exact List.mem_singleton_self _

/-- The packages that types of fields refer to are imported. -/
theorem exists_packageAt
    (h : ∀ goType ∈ types, goType ∈ GoType.ofFields)
    {goType package : String}
    (hgoType : goType ∈ types)
    (hpackage : package ∈ Go.qualifiers goType) :
    ∃ path ∈ (forFieldTypes types).paths, Go.packageAt path = package := by
  rcases GoType.qualifiers_mem goType (h goType hgoType) package hpackage with rfl | ⟨rfl, htime⟩
  · exact ⟨_, (mem_forFieldTypes_iff h).mpr (Or.inl (by decide)), rfl⟩
  · exact ⟨_, (mem_forFieldTypes_iff h).mpr (Or.inr ⟨rfl, goType, hgoType, htime⟩), rfl⟩

end ImportSet

namespace GoStruct

variable {table structName package : String}
variable {columns : List Column}
variable {naming : NamingConvention}
variable {options : FieldOptions}
variable {model : GoStruct}

/-- The primary key has the type of a field, or the one for keys where no column is a key. -/
theorem primaryKeyType_mem
    (h : ofColumns? table structName package columns naming options = .ok (some model)) :
    model.primaryKeyType ∈ GoType.int64 :: model.fields.map (·.goType) := by
  rw [eq_of_ofColumns? h]
  simp only [ofColumns]
  cases hkey : (columns.map fun column => Field.ofColumn column naming options).find?
      (·.isPrimaryKey) with
  | none => exact List.mem_cons_self ..
  | some field =>
      exact List.mem_cons_of_mem _ (List.mem_map_of_mem (List.mem_of_find?_eq_some hkey))

theorem fieldTypes_mem
    (h : ofColumns? table structName package columns naming options = .ok (some model))
    (hscan : ∀ column ∈ columns, column.ScansPostgres) :
    ∀ goType ∈ model.fields.map (·.goType), goType ∈ GoType.ofFields := by
  intro goType hgoType
  obtain ⟨field, hfield, rfl⟩ := List.mem_map.mp hgoType
  rw [eq_of_ofColumns? h] at hfield
  obtain ⟨column, hcolumn, rfl⟩ := List.mem_map.mp hfield
  exact Field.typeOf_mem (hscan column hcolumn) options

end GoStruct

namespace RenderContext

variable {table structName package : String}
variable {columns : List Column}
variable {naming : NamingConvention}
variable {options : FieldOptions}
variable {model : GoStruct}

/-- The imports of a model fit its fields.  Whatever package the type of a field or of the primary
key refers to is imported, that of time exactly if a field holds a point in time or a pointer to
one; besides it there are two imports, which all models have, and the list is strictly increasing.
-/
theorem imports_match
    (hmodel : GoStruct.ofColumns? table structName package columns naming options =
      .ok (some model))
    (hscan : ∀ column ∈ columns, column.ScansPostgres)
    (project : String) :
    let context := ofModel model project
    (∀ goType ∈ context.primaryKeyType :: context.fields.map (·.goType),
      ∀ package ∈ Go.qualifiers goType,
        ∃ path ∈ context.imports.paths, Go.packageAt path = package) ∧
    ("time" ∈ context.imports.paths ↔
      ∃ field ∈ context.fields, field.goType = "time.Time" ∨ field.goType = "*time.Time") ∧
    (∀ path ∈ context.imports.paths, path ∈ ["context", "gorm.io/gorm", "time"]) ∧
    (∀ path ∈ ["context", "gorm.io/gorm"], path ∈ context.imports.paths) ∧
    context.imports.paths.Pairwise (· < ·) := by
  have htypes := GoStruct.fieldTypes_mem hmodel hscan
  have hfields : (ofModel model project).fields.map (·.goType) = model.fields.map (·.goType) :=
    List.map_map ..
  have himports : (ofModel model project).imports =
      ImportSet.forFieldTypes ((ofModel model project).fields.map (·.goType)) := by
    rw [hfields]
    rfl
  rw [← hfields] at htypes
  intro context
  refine ⟨fun goType hgoType package hpackage => ?_, ?_, fun path hpath => ?_, fun path hpath => ?_,
    ?_⟩
  · have hkey : context.primaryKeyType ∈ GoType.int64 :: context.fields.map (·.goType) := by
      rw [hfields]
      exact GoStruct.primaryKeyType_mem hmodel
    have hmem : goType ∈ GoType.int64 :: context.fields.map (·.goType) := by
      rcases List.mem_cons.mp hgoType with rfl | hfield
      · exact hkey
      · exact List.mem_cons_of_mem _ hfield
    rw [himports]
    rcases List.mem_cons.mp hmem with rfl | hmem
    · cases hpackage
    · exact ImportSet.exists_packageAt htypes hmem hpackage
  · rw [himports, ImportSet.mem_forFieldTypes_iff htypes]
    constructor
    · rintro (hlisted | ⟨-, goType, hgoType, htime⟩)
      · exact absurd hlisted (by decide)
      · obtain ⟨field, hfield, rfl⟩ := List.mem_map.mp hgoType
        exact ⟨field, hfield, by simpa [GoType.times] using htime⟩
    · rintro ⟨field, hfield, htime⟩
      exact Or.inr ⟨rfl, _, List.mem_map_of_mem hfield, by simpa [GoType.times] using htime⟩
  · rw [himports, ImportSet.mem_forFieldTypes_iff htypes] at hpath
    rcases hpath with hpath | ⟨rfl, -⟩
    · exact List.mem_append_left ["time"] hpath
    · decide
  · rw [himports, ImportSet.mem_forFieldTypes_iff htypes]
    exact Or.inl hpath
  · rw [himports]
    exact ImportSet.pairwise_forFieldTypes _

/-- A column with the scan type of a PostgreSQL type. -/
def scannedColumn (name udt : String) : Column where
  table := "sessions"
  name := name
  databaseType := udt
  columnType := udt
  scanType := some (ScanType.ofName (Postgres.scanTypeName udt))
  useScanType := true

/-- A table of sessions that expire and can be deleted softly. -/
def sessionColumns : List Column :=
  [scannedColumn "id" "int8", scannedColumn "expires_at" "timestamptz",
    scannedColumn "deleted_at" "timestamptz"]

/-- A pointer to a point in time and a mark of soft deletion have their packages imported. -/
theorem sessions_imports :
    ∃ model,
      GoStruct.ofColumns? "sessions" "Session" "db" sessionColumns {} {} = .ok (some model) ∧
        (∀ column ∈ sessionColumns, column.ScansPostgres) ∧
        model.fields.map (·.goType) = ["*int64", "*time.Time", "gorm.DeletedAt"] ∧
        "time" ∈ (ofModel model "").imports.paths ∧
        (∃ path ∈ (ofModel model "").imports.paths, Go.packageAt path = "gorm") ∧
        (ofModel model "").imports.paths.Pairwise (· < ·) := by
  have hmodel : GoStruct.ofColumns? "sessions" "Session" "db" sessionColumns {} {} =
      .ok (some (GoStruct.ofColumns "sessions" "Session" "db" sessionColumns {} {})) := by
    rfl
  have hscan : ∀ column ∈ sessionColumns, column.ScansPostgres := by
    intro column hcolumn scan hscan
    simp only [sessionColumns, List.mem_cons, List.not_mem_nil, or_false] at hcolumn
    rcases hcolumn with rfl | rfl | rfl <;> exact ⟨_, (Option.some.inj hscan).symm⟩
  obtain ⟨hpackages, htime, -, -, hsorted⟩ := imports_match hmodel hscan ""
  have htypes : (GoStruct.ofColumns "sessions" "Session" "db" sessionColumns {} {}).fields.map
      (·.goType) = ["*int64", "*time.Time", "gorm.DeletedAt"] := by
    decide +kernel
  refine ⟨_, hmodel, hscan, htypes, htime.mpr ?_, hpackages "gorm.DeletedAt" ?_ "gorm" ?_, hsorted⟩
  · decide +kernel
  · decide +kernel
  · decide +kernel

end RenderContext
end GormForge
