import GormForge.Model.Field

/-!
# Field options

What each of the options changes in the field of a column.

**Algorithm.**  Most options are looked at in one place.  Whether a type is made unsigned shows in
several: the base type decides the class of the values of a column, the class decides whether its
default is worth declaring, and that decides the pointer and the end of the tag.  But a base type
that is made unsigned held numbers before and holds numbers after, and of numbers the same defaults
are declared.

**Results.**
* `Field.hasDefault_eq`: whether a default is worth declaring does not depend on the options.
* `Field.typeOf_eq`: the type of a field, put together from its parts.
* `Field.options_independent`: what a field with one option changed differs in.
-/

namespace GormForge

/-! ## Base types -/

namespace GoType

/-- The Go types that stand for types of columns. -/
def resolved : List String :=
  ["bool", "int32", "int64", "float64", "string", "[]byte", "time.Time", "[]uint8"]

theorem resolve_mem
    (databaseType detail : String) :
    resolve databaseType detail ∈ resolved := by
  have hfamilies : ∀ family ∈ families, family.1 ∈ resolved := by decide
  rw [resolve]
  split
  · rw [ofTinyint]
    split <;> decide
  · split
    · next family hfamily => exact hfamilies family (List.mem_of_find?_eq_some hfamily)
    · decide

end GoType

namespace Field

variable {column : Column}

/-- Whether the type of a column is made unsigned when the options ask for it. -/
def isUnsigned (column : Column) : Bool :=
  Text.contains "unsigned".toList column.columnType.toList &&
    Text.beginsWith "int".toList (signedType column).toList

theorem baseType_eq
    (column : Column)
    (options : FieldOptions) :
    baseType column options =
      if options.signable && isUnsigned column then "u" ++ signedType column
      else signedType column := by
  rw [baseType, isUnsigned, ← Bool.and_assoc]

theorem signedType_ne_time
    (h : isUnsigned column = true) :
    signedType column ≠ GoType.time := by
  rw [isUnsigned, Bool.and_eq_true, Text.beginsWith_iff] at h
  obtain ⟨-, rest, hrest⟩ := h
  intro htime
  simp [htime, GoType.time] at hrest

/-- A type that is made unsigned is no point in time, neither before nor after. -/
theorem baseType_eq_time_iff
    (column : Column)
    (options : FieldOptions) :
    baseType column options = GoType.time ↔ signedType column = GoType.time := by
  rw [baseType_eq]
  split
  · next h =>
      have hbefore := signedType_ne_time (Bool.and_eq_true_iff.mp h).2
      have hafter : "u" ++ signedType column ≠ GoType.time := by
        intro htime
        simpa [GoType.time] using congrArg String.toList htime
      exact iff_of_false hafter hbefore
  · rfl

/-! ## Defaults -/

/-- A type that is made unsigned holds numbers before and after, unless the driver tells the class of
the values by itself. -/
theorem scanKindOf_of_isUnsigned
    (h : isUnsigned column = true) :
    scanKindOf column ("u" ++ signedType column) = scanKindOf column (signedType column) ∨
      ((scanKindOf column ("u" ++ signedType column)).isNumeric = true ∧
        (scanKindOf column (signedType column)).isNumeric = true) := by
  cases hscan : column.scanType with
  | some scan => simp [scanKindOf, hscan]
  | none =>
      have hsigned : signedType column =
          GoType.resolve column.databaseType column.columnType := by
        simp [signedType, hscan]
      have hnumeric : ∀ goType ∈ GoType.resolved,
          Text.beginsWith "int".toList goType.toList = true →
            (ScanKind.ofGoType ("u" ++ goType)).isNumeric = true ∧
              (ScanKind.ofGoType goType).isNumeric = true := by
        decide
      by_cases htinyint : Text.eqIgnoringAsciiCase column.databaseType "tinyint" = true
      · simp [scanKindOf, hscan, htinyint]
      · have hmem : signedType column ∈ GoType.resolved := by
          rw [hsigned]
          exact GoType.resolve_mem _ _
        simp only [scanKindOf, hscan, if_neg htinyint]
        exact Or.inr (hnumeric _ hmem (Bool.and_eq_true_iff.mp h).2)

/-- Of all classes of numbers the same defaults are declared. -/
theorem declaresDefault_of_isNumeric
    {kind kind' : ScanKind}
    (h : kind.isNumeric = true)
    (h' : kind'.isNumeric = true)
    (column : Column)
    (value : String) :
    declaresDefault column kind value = declaresDefault column kind' value := by
  simp only [declaresDefault, h, h', if_true]

/-- Whether a default is worth declaring does not depend on the options. -/
theorem hasDefault_eq
    (column : Column)
    (options : FieldOptions) :
    hasDefault column options =
      declaresDefault column (scanKindOf column (signedType column)) (defaultText column) := by
  rw [hasDefault, baseType_eq]
  split
  · next h =>
      rcases scanKindOf_of_isUnsigned (Bool.and_eq_true_iff.mp h).2 with heq | ⟨hafter, hbefore⟩
      · rw [heq]
      · exact declaresDefault_of_isNumeric hafter hbefore _ _
  · rfl

/-! ## Parts of a field -/

/-- What makes the type of a field a pointer. -/
def pointerMark (column : Column) (options : FieldOptions) : String :=
  if (options.coverable && hasDefault column options) || (options.nullable && column.nullable) then
    "*"
  else
    ""

theorem pointerMark_mem
    (column : Column)
    (options : FieldOptions) :
    pointerMark column options ∈ ["", "*"] := by
  rw [pointerMark]
  split <;> simp

/-- The type of a field, put together from its parts. -/
theorem typeOf_eq
    (column : Column)
    (options : FieldOptions) :
    typeOf column options =
      if column.name = "deleted_at" ∧ signedType column = GoType.time then GoType.softDelete
      else pointerMark column options ++ baseType column options := by
  rw [typeOf, pointerMark]
  simp only [baseType_eq_time_iff]
  split
  · rfl
  · split <;> simp

/-- Neither the pointer nor the tag depends on whether types are made unsigned. -/
theorem pointerMark_signable
    (column : Column)
    (options : FieldOptions)
    (signable : Bool) :
    pointerMark column { options with signable := signable } = pointerMark column options := by
  rw [pointerMark, pointerMark, hasDefault_eq, hasDefault_eq]

theorem gormTagOf_signable
    (column : Column)
    (options : FieldOptions)
    (signable : Bool) :
    gormTagOf column { options with signable := signable } = gormTagOf column options := by
  rw [gormTagOf, gormTagOf, gormEntries, gormEntries, hasDefault_eq, hasDefault_eq]

theorem typeOf_of_isUnsigned
    (h : isUnsigned column = true)
    (options : FieldOptions) :
    typeOf column options =
      pointerMark column options ++ (if options.signable then "u" else "") ++
        signedType column := by
  have hsoft : ¬ (column.name = "deleted_at" ∧ signedType column = GoType.time) := fun hsoft =>
    signedType_ne_time h hsoft.2
  rw [typeOf_eq, if_neg hsoft, baseType_eq, h, String.append_assoc]
  cases options.signable <;> simp

theorem typeOf_signable_of_not
    (h : isUnsigned column = false)
    (options : FieldOptions)
    (signable : Bool) :
    typeOf column { options with signable := signable } = typeOf column options := by
  rw [typeOf_eq, typeOf_eq, pointerMark_signable, baseType_eq, baseType_eq, h, Bool.and_false,
    Bool.and_false]

/-! ## One option changed -/

/-- Each option changes its own part of the field of a column and nothing else: those for the types
and the indexes of the database the tag, those for pointers the type, the casing of `ID` the two
names, and the one for unsigned types the type, by the letter that it puts in front of a base type
`int` whose declared type mentions `unsigned`, behind the pointer if there is one. -/
theorem options_independent
    (column : Column)
    (naming : NamingConvention)
    (options : FieldOptions) :
    let field := ofColumn column naming options
    let signed := ofColumn column naming { options with signable := false }
    let unsigned := ofColumn column naming { options with signable := true }
    (∀ typeTag,
      { ofColumn column naming { options with typeTag := typeTag } with
        gormTag := field.gormTag } = field) ∧
    (∀ indexTag,
      { ofColumn column naming { options with indexTag := indexTag } with
        gormTag := field.gormTag } = field) ∧
    (∀ nullable,
      { ofColumn column naming { options with nullable := nullable } with
        goType := field.goType } = field) ∧
    (∀ coverable,
      { ofColumn column naming { options with coverable := coverable } with
        goType := field.goType } = field) ∧
    (∀ idCasing,
      { ofColumn column naming { options with idCasing := idCasing } with
        name := field.name, jsonTag := field.jsonTag } = field) ∧
    { unsigned with goType := signed.goType } = signed ∧
    if isUnsigned column then
      ∃ pointer ∈ ["", "*"],
        signed.goType = pointer ++ signedType column ∧
          unsigned.goType = pointer ++ "u" ++ signedType column
    else
      unsigned.goType = signed.goType := by
  refine ⟨fun _ => rfl, fun _ => rfl, fun _ => rfl, fun _ => rfl, fun _ => rfl, ?_, ?_⟩
  · have htag : gormTagOf column { options with signable := true } =
        gormTagOf column { options with signable := false } :=
      gormTagOf_signable column { options with signable := false } true
    change { ofColumn column naming { options with signable := false } with
      gormTag := gormTagOf column { options with signable := true } } = _
    rw [htag]
    rfl
  · split
    · next h =>
        refine ⟨pointerMark column options, pointerMark_mem column options, ?_, ?_⟩
        · change typeOf column { options with signable := false } = _
          rw [typeOf_of_isUnsigned h, pointerMark_signable]
          simp
        · change typeOf column { options with signable := true } = _
          rw [typeOf_of_isUnsigned h, pointerMark_signable]
          simp
    · next h =>
        exact typeOf_signable_of_not (Bool.eq_false_iff.mpr h)
          { options with signable := false } true

end Field
end GormForge
