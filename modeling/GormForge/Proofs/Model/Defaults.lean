import GormForge.Proofs.Model.Options

/-!
# Declared defaults

When the default of a column stands in its tag, and what that means for its type.

**Algorithm.**  One test decides both: a default that is worth declaring ends the tag of a column
that is no primary key, and where columns are coverable it makes the type a pointer, so that a zero
value can be told from a missing one.  Only a column that marks soft deletion has a type of its own.

**Results.**
* `Field.gormTagOf_eq`: a tag is that of the column without its default, and the clause of the
  default.
* `Field.default_with_pointer`: for coverable columns the clause and the pointer come together.
-/

namespace GormForge
namespace Field

variable {column : Column}
variable {options : FieldOptions}

/-! ## The test -/

/-- A column without a default has none that is worth declaring. -/
theorem hasDefault_withoutDefault
    (column : Column)
    (options : FieldOptions) :
    hasDefault { column with default := none } options = false := by
  simp [hasDefault, declaresDefault, defaultText]

/-- A default that is worth declaring is not empty. -/
theorem exists_default_of_hasDefault
    (h : hasDefault column options = true) :
    ∃ value, column.default = some value ∧ value ≠ "" := by
  cases hvalue : column.default with
  | none => simp [hasDefault, declaresDefault, defaultText, hvalue] at h
  | some value =>
      refine ⟨value, rfl, ?_⟩
      rintro rfl
      simp [hasDefault, declaresDefault, defaultText, hvalue] at h

/-! ## Tags -/

/-- The end of the tag of a column, for its default. -/
def defaultClause (column : Column) (options : FieldOptions) : String :=
  if hasDefault column options && !column.primaryKey then ";default:" ++ defaultText column else ""

theorem gormTagOf_eq
    (column : Column)
    (options : FieldOptions) :
    gormTagOf column options =
      gormTagOf { column with default := none } options ++ defaultClause column options := by
  have hentries : gormEntries column options =
      gormEntries { column with default := none } options ++
        (if hasDefault column options && !column.primaryKey then
          ["default:" ++ defaultText column]
        else []) := by
    rw [gormEntries, gormEntries, hasDefault_withoutDefault]
    simp
  have hne : gormEntries { column with default := none } options ≠ [] := by
    simp [gormEntries]
  rw [gormTagOf, gormTagOf, hentries, defaultClause]
  split
  · have hlead : ";default:" = ";" ++ "default:" := rfl
    rw [String.intercalate_append_of_ne_nil hne (List.cons_ne_nil _ _),
      String.intercalate_singleton, hlead]
    simp only [String.append_assoc]
  · simp

/-- The default is in the tag exactly if it is worth declaring and the column is no key. -/
theorem gormTagOf_eq_iff
    (column : Column)
    (options : FieldOptions) :
    gormTagOf column options = gormTagOf { column with default := none } options ↔
      (hasDefault column options && !column.primaryKey) = false := by
  rw [gormTagOf_eq, String.append_eq_left_iff, defaultClause]
  split
  · next h => simp [h]
  · next h => simp [h]

/-! ## Types -/

/-- A default that is not worth declaring makes no difference to the type. -/
theorem typeOf_withoutDefault
    (h : hasDefault column options = false) :
    typeOf column options = typeOf { column with default := none } options := by
  have hmark : pointerMark column options = pointerMark { column with default := none } options := by
    rw [pointerMark, pointerMark, h, hasDefault_withoutDefault]
  rw [typeOf_eq, typeOf_eq, hmark]
  rfl

theorem typeOf_of_hasDefault
    (hcoverable : options.coverable = true)
    (h : hasDefault column options = true) :
    typeOf column options = "*" ++ baseType column options ∨
      typeOf column options = GoType.softDelete := by
  rw [typeOf_eq]
  split
  · exact Or.inr rfl
  · left
    rw [pointerMark, hcoverable, h]
    rfl

/-- How a default stands in a tag: a blank one is quoted. -/
theorem defaultText_of_ne
    {value : String}
    (hvalue : column.default = some value)
    (hne : value ≠ "") :
    defaultText column =
      if (Text.trimChars value.toList).isEmpty then "'" ++ value ++ "'" else value := by
  have hempty : value.isEmpty = false := by simpa using hne
  simp only [defaultText, hvalue, hempty, Bool.not_false, Bool.true_and]
  rfl

/-! ## Tags and types -/

/-- Let a column be coverable and no primary key.  If its default shows in the tag, it is the end of
the tag, and the type is a pointer to the base type or marks soft deletion; otherwise the type is the
same without the default.  The tag of a primary key never shows a default. -/
theorem default_with_pointer
    (column : Column)
    (naming : NamingConvention)
    (options : FieldOptions) :
    let field := ofColumn column naming options
    let plain := ofColumn { column with default := none } naming options
    (column.primaryKey = false → options.coverable = true →
      (field.gormTag ≠ plain.gormTag →
        (∃ value, column.default = some value ∧
          field.gormTag = plain.gormTag ++ ";default:" ++
            if (Text.trimChars value.toList).isEmpty then "'" ++ value ++ "'" else value) ∧
        (field.goType = "*" ++ baseType column options ∨ field.goType = GoType.softDelete)) ∧
      (field.gormTag = plain.gormTag → field.goType = plain.goType)) ∧
    (column.primaryKey = true → field.gormTag = plain.gormTag) := by
  intro field plain
  refine ⟨fun hkey hcoverable => ⟨fun hne => ?_, fun heq => ?_⟩, fun hkey => ?_⟩
  · have hdefault : hasDefault column options = true := by
      cases h : hasDefault column options with
      | true => rfl
      | false => exact absurd ((gormTagOf_eq_iff column options).mpr (by rw [h]; rfl)) hne
    obtain ⟨value, hvalue, hvalue_ne⟩ := exists_default_of_hasDefault hdefault
    have hclause : defaultClause column options = ";default:" ++ defaultText column := by
      rw [defaultClause, hdefault, hkey]
      rfl
    refine ⟨⟨value, hvalue, ?_⟩, typeOf_of_hasDefault hcoverable hdefault⟩
    rw [← defaultText_of_ne hvalue hvalue_ne, String.append_assoc, ← hclause]
    exact gormTagOf_eq column options
  · have hno := (gormTagOf_eq_iff column options).mp heq
    rw [hkey, Bool.not_false, Bool.and_true] at hno
    exact typeOf_withoutDefault hno
  · refine (gormTagOf_eq_iff column options).mpr ?_
    rw [hkey, Bool.not_true, Bool.and_false]

/-- A column with a blank default. -/
def sepColumn : Column where
  table := "notes"
  name := "sep"
  databaseType := "VARCHAR"
  columnType := "varchar(8)"
  nullable := false
  default := some " "

/-- A blank default is quoted in the tag and makes a string a pointer; a key does without it. -/
theorem sep_with_pointer :
    (ofColumn sepColumn {} { coverable := true }).gormTag =
        "column:sep;type:varchar(8);not null;default:' '" ∧
      (ofColumn sepColumn {} { coverable := true }).goType = "*string" ∧
      (ofColumn { sepColumn with primaryKey := true } {} { coverable := true }).gormTag =
        "column:sep;type:varchar(8);primaryKey;autoIncrement:false" := by
  obtain ⟨hcolumn, -⟩ := default_with_pointer sepColumn {} { coverable := true }
  have hplain : (ofColumn { sepColumn with default := none } {} { coverable := true }).gormTag =
      "column:sep;type:varchar(8);not null" := by
    decide +kernel
  have hne : (ofColumn sepColumn {} { coverable := true }).gormTag ≠
      (ofColumn { sepColumn with default := none } {} { coverable := true }).gormTag := by
    decide +kernel
  obtain ⟨⟨value, hvalue, htag⟩, htype⟩ := (hcolumn rfl rfl).1 hne
  obtain rfl : " " = value := Option.some.inj hvalue
  have hbase : baseType sepColumn { coverable := true } = "string" := by decide +kernel
  have hhard : (ofColumn sepColumn {} { coverable := true }).goType ≠ GoType.softDelete := by
    decide +kernel
  have hkey := (default_with_pointer { sepColumn with primaryKey := true } {}
    { coverable := true }).2 rfl
  refine ⟨?_, ?_, ?_⟩
  · rw [htag, hplain]
    decide +kernel
  · rw [htype.resolve_right hhard, hbase]
    rfl
  · rw [hkey]
    decide +kernel

end Field
end GormForge
