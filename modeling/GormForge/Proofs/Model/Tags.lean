import GormForge.Model.Field
import GormForge.Proofs.Go.StructTag
import GormForge.Proofs.Naming.Skeleton

/-!
# Reading struct tags back

When the struct tag of a field says what the field holds.

**Input.**  A column.  Its name, its declared type, its default and the names of its indexes are
texts of the database, and are put into the tag as they are.

**Algorithm.**  The tag stands in a raw string, and its values in strings within that.  So there are
four characters in its text that are not read as themselves: the quote of raw strings, the quote of
strings, the backslash and the line feed.  A carriage return, which Go drops from raw strings before
a tag is read, is taken as it stands.

**Results.**
* `Field.readsBack_iff`: the tag of a field is read back exactly if both of its values are there
  and hold none of them.
* `Field.readsBack_ofColumn_iff`: for a column, exactly if the field has a name and the texts of
  the database hold none of them.
-/

namespace GormForge

namespace Text

variable {p : Char → Bool}

/-- What is found in joined texts is found in one of them, if the separator does not have it. -/
theorem any_intercalate
    {separator : String}
    (h : separator.toList.any p = false)
    (texts : List String) :
    (separator.intercalate texts).toList.any p = texts.any fun text => text.toList.any p := by
  induction texts with
  | nil => rfl
  | cons text rest ih =>
      cases rest with
      | nil => simp
      | cons next rest =>
          rw [String.intercalate_cons_of_ne_nil (List.cons_ne_nil _ _), String.toList_append,
            String.toList_append, List.any_append, List.any_append, h, ih]
          simp

/-- Numbers are written in digits. -/
theorem any_toString_nat
    (h : ∀ c, p c = true → c.isDigit = false)
    (n : Nat) :
    (toString n).toList.any p = false := by
  rw [List.any_eq_false]
  intro c hc hp
  have hdigits : (toString n).toList = Nat.toDigits 10 n := Nat.toList_repr
  rw [hdigits] at hc
  have hdigit := Nat.isDigit_of_mem_toDigits (by decide) (by decide) hc
  rw [h c hp] at hdigit
  cases hdigit

theorem lowerFirst_eq_empty_iff
    {s : String} :
    lowerFirst s = "" ↔ s = "" := by
  constructor
  · intro h
    have hchars : lowerFirstChars s.toList = [] := by
      simpa [lowerFirst] using congrArg String.toList h
    cases hs : s.toList with
    | nil => exact String.toList_eq_nil_iff.mp hs
    | cons c cs =>
        rw [hs, lowerFirstChars, List.append_eq_nil_iff] at hchars
        exact absurd hchars.1 (lowerChar_ne_nil c)
  · rintro rfl
    rfl

end Text

namespace Field

variable {field : Field}
variable {column : Column}

/-- Whether a character ends a string within a raw string, or is not read as itself there. -/
def breaksTag (c : Char) : Bool :=
  Go.isStringMark c || c == Go.rawQuote

/-- The tag of a field can stand in a raw string, and its entries are the two values of the
field. -/
structure ReadsBack (field : Field) : Prop where
  noRawQuote : Go.rawQuote ∉ field.tags.toList
  entries : Go.StructTag.entries? field.tags =
    some [("gorm", Text.encode field.gormTag), ("json", Text.encode field.jsonTag)]

theorem isMark_of_breaksTag
    {c : Char}
    (h : breaksTag c = true) :
    Text.IsMark c ∧ c.isDigit = false := by
  simp only [breaksTag, Go.isStringMark, Bool.or_eq_true, beq_iff_eq] at h
  rcases h with ((rfl | rfl) | rfl) | rfl
  all_goals exact ⟨⟨by decide, by decide, by decide⟩, by decide⟩

theorem any_breaksTag_eq_false_iff
    {cs : List Char} :
    cs.any breaksTag = false ↔ cs.any Go.isStringMark = false ∧ Go.rawQuote ∉ cs := by
  simp only [List.any_eq_false, breaksTag, Bool.or_eq_true, beq_iff_eq, not_or, Bool.not_eq_true]
  constructor
  · intro h
    exact ⟨fun c hc => (h c hc).1, fun hmem => (h _ hmem).2 rfl⟩
  · rintro ⟨hstring, hraw⟩ c hc
    exact ⟨hstring c hc, fun heq => hraw (heq ▸ hc)⟩

/-! ## Fields -/

theorem isKey_gorm : Go.StructTag.IsKey "gorm".toList :=
  ⟨by decide, List.all_eq_true.mp (by decide)⟩

theorem isKey_json : Go.StructTag.IsKey "json".toList :=
  ⟨by decide, List.all_eq_true.mp (by decide)⟩

theorem tagPart_of_ne
    {value : String}
    (key : String)
    (h : value ≠ "") :
    tagPart key value = [String.ofList (Go.StructTag.entryText key.toList value.toList)] := by
  have hvalue : value.isEmpty = false := by simpa using h
  have htext : key ++ ":\"" ++ value ++ "\"" =
      String.ofList (Go.StructTag.entryText key.toList value.toList) := by
    rw [← String.toList_inj]
    simp [Go.StructTag.entryText]
  rw [tagPart, hvalue, htext]
  rfl

/-- The body of the tag of a field with both values. -/
theorem toList_tags
    (hgorm : field.gormTag ≠ "")
    (hjson : field.jsonTag ≠ "") :
    field.tags.toList =
      Go.StructTag.entryText "gorm".toList field.gormTag.toList ++
        ' ' :: Go.StructTag.entryText "json".toList field.jsonTag.toList := by
  rw [tags, tagPart_of_ne "gorm" hgorm, tagPart_of_ne "json" hjson]
  simp

/-- The body of the tag of a field with the first value only. -/
theorem toList_tags_of_noJson
    (hgorm : field.gormTag ≠ "")
    (hjson : field.jsonTag = "") :
    field.tags.toList = Go.StructTag.entryText "gorm".toList field.gormTag.toList := by
  rw [tags, tagPart_of_ne "gorm" hgorm, hjson]
  simp [tagPart]

/-- The tag of a field is read back exactly if there are two values, and no character in them is
read as something else. -/
theorem readsBack_iff
    (hgorm : field.gormTag ≠ "") :
    field.ReadsBack ↔
      field.jsonTag ≠ "" ∧
        field.gormTag.toList.any breaksTag = false ∧
        field.jsonTag.toList.any breaksTag = false := by
  by_cases hjson : field.jsonTag = ""
  · refine ⟨fun h => absurd h.entries ?_, fun h => absurd hjson h.1⟩
    unfold Go.StructTag.entries?
    rw [toList_tags_of_noJson hgorm hjson]
    exact Go.StructTag.entriesWithin_single_ne "gorm".toList field.gormTag.toList _
  · have hbody := toList_tags hgorm hjson
    have hentries : Go.StructTag.entries? field.tags =
          some [("gorm", Text.encode field.gormTag), ("json", Text.encode field.jsonTag)] ↔
        field.gormTag.toList.any Go.isStringMark = false ∧
          field.jsonTag.toList.any Go.isStringMark = false :=
      Go.StructTag.entries?_pair_iff isKey_gorm isKey_json hbody
    have hraw : Go.rawQuote ∉ field.tags.toList ↔
        Go.rawQuote ∉ field.gormTag.toList ∧ Go.rawQuote ∉ field.jsonTag.toList := by
      rw [hbody]
      simp [Go.StructTag.entryText, Go.rawQuote]
    rw [any_breaksTag_eq_false_iff, any_breaksTag_eq_false_iff]
    constructor
    · rintro ⟨hnoRaw, hread⟩
      obtain ⟨hgormRaw, hjsonRaw⟩ := hraw.mp hnoRaw
      obtain ⟨hgormPlain, hjsonPlain⟩ := hentries.mp hread
      exact ⟨hjson, ⟨hgormPlain, hgormRaw⟩, hjsonPlain, hjsonRaw⟩
    · rintro ⟨-, ⟨hgormPlain, hgormRaw⟩, hjsonPlain, hjsonRaw⟩
      exact ⟨hraw.mpr ⟨hgormRaw, hjsonRaw⟩, hentries.mpr ⟨hgormPlain, hjsonPlain⟩⟩

/-! ## Columns -/

/-- The texts of the database that are put into the tag of a column. -/
def splicedTexts (column : Column) (options : FieldOptions) : List String :=
  [column.name] ++
    (if options.typeTag then [column.columnType] else []) ++
    (if options.indexTag then
        (column.indexes.filter fun index => !index.primaryKey).map (·.name)
      else []) ++
    (if hasDefault column options && !column.primaryKey then [defaultText column] else [])

/-- Whether some of the texts cannot be read back. -/
def breaks (texts : List String) : Bool :=
  texts.any fun text => text.toList.any breaksTag

theorem any_breaksTag_append
    {lead : String}
    (h : lead.toList.any breaksTag = false)
    (s : String) :
    (lead ++ s).toList.any breaksTag = s.toList.any breaksTag := by
  rw [String.toList_append, List.any_append, h, Bool.false_or]

theorem any_breaksTag_indexEntry
    (index : ColumnIndex) :
    (indexEntry index).toList.any breaksTag = index.name.toList.any breaksTag := by
  have hkind : (if index.unique then "uniqueIndex" else "index").toList.any breaksTag = false := by
    split <;> decide
  have hnumber : (toString index.priority).toList.any breaksTag = false :=
    Text.any_toString_nat (fun c hc => (isMark_of_breaksTag hc).2) _
  have hcolon : ":".toList.any breaksTag = false := by decide
  have hpriority : ",priority:".toList.any breaksTag = false := by decide
  have hentry : indexEntry index =
      (if index.unique then "uniqueIndex" else "index") ++ ":" ++ index.name ++ ",priority:" ++
        toString index.priority := rfl
  rw [hentry]
  simp only [String.toList_append, List.any_append, hkind, hnumber, hcolon, hpriority,
    Bool.false_or, Bool.or_false]

/-- The marks of a column's tag are those of the texts of the database. -/
theorem any_breaksTag_gormTagOf
    (column : Column)
    (options : FieldOptions) :
    (gormTagOf column options).toList.any breaksTag = breaks (splicedTexts column options) := by
  have hname : ("column:" ++ column.name).toList.any breaksTag = column.name.toList.any breaksTag :=
    any_breaksTag_append (by decide) _
  have htype : ("type:" ++ column.columnType).toList.any breaksTag =
      column.columnType.toList.any breaksTag :=
    any_breaksTag_append (by decide) _
  have hdefault : ("default:" ++ defaultText column).toList.any breaksTag =
      (defaultText column).toList.any breaksTag :=
    any_breaksTag_append (by decide) _
  have hkey : (if column.primaryKey then ["primaryKey", s!"autoIncrement:{column.autoIncrement}"]
      else if column.nullable then [] else ["not null"]).any
        (fun text => text.toList.any breaksTag) = false := by
    cases column.primaryKey <;> cases column.autoIncrement <;> cases column.nullable <;> decide
  unfold gormTagOf
  rw [Text.any_intercalate (by decide)]
  unfold gormEntries splicedTexts breaks
  rw [List.any_append, List.any_append, List.any_append, List.any_append, hkey, Bool.or_false]
  simp only [List.any_append]
  congr 1
  · congr 1
    · congr 1
      · simp only [List.any_cons, hname]
      · split <;> simp only [List.any_cons, htype, List.any_nil]
    · split
      · simp only [List.any_map, Function.comp_def, any_breaksTag_indexEntry]
      · rfl
  · split <;> simp only [List.any_cons, hdefault, List.any_nil]

theorem gormTagOf_ne_empty
    (column : Column)
    (options : FieldOptions) :
    gormTagOf column options ≠ "" := by
  intro h
  have hchars := congrArg String.toList h
  unfold gormTagOf gormEntries at hchars
  simp at hchars

/-- A field is named by its column, so what cannot be read back is in both or in neither. -/
theorem any_breaksTag_jsonTag
    (naming : NamingConvention)
    (options : FieldOptions)
    (h : column.name.toList.any breaksTag = false) :
    (ofColumn column naming options).jsonTag.toList.any breaksTag = false := by
  rw [List.any_eq_false] at h ⊢
  intro c hc hbreaks
  obtain ⟨hmark, hdigit⟩ := isMark_of_breaksTag hbreaks
  have hname : c ∉ column.name.toList := fun hmem => h c hmem hbreaks
  exact Text.notMem_lowerFirst hmark (notMem_nameOf naming options hmark hdigit hname) hc

/-- The tag of a column is read back exactly if its field has a name and every text of the
database in it is read as itself. -/
theorem readsBack_ofColumn_iff
    (column : Column)
    (naming : NamingConvention)
    (options : FieldOptions) :
    (ofColumn column naming options).ReadsBack ↔
      (ofColumn column naming options).name ≠ "" ∧
        ∀ text ∈ splicedTexts column options, text.toList.any breaksTag = false := by
  have hjson : (ofColumn column naming options).jsonTag ≠ "" ↔
      (ofColumn column naming options).name ≠ "" :=
    not_congr Text.lowerFirst_eq_empty_iff
  have hgorm : (ofColumn column naming options).gormTag.toList.any breaksTag = false ↔
      ∀ text ∈ splicedTexts column options, text.toList.any breaksTag = false := by
    change (gormTagOf column options).toList.any breaksTag = false ↔ _
    rw [any_breaksTag_gormTagOf, breaks, List.any_eq_false]
    simp only [Bool.not_eq_true]
  rw [readsBack_iff (gormTagOf_ne_empty column options), hjson, hgorm]
  constructor
  · rintro ⟨hname, htexts, -⟩
    exact ⟨hname, htexts⟩
  · rintro ⟨hname, htexts⟩
    refine ⟨hname, htexts, any_breaksTag_jsonTag naming options (htexts column.name ?_)⟩
    simp [splicedTexts]

/-- A column whose default is a quote. -/
def quoteColumn : Column where
  table := "notes"
  name := "mark"
  databaseType := "VARCHAR"
  columnType := "varchar(8)"
  nullable := false
  default := some "\""

/-- The default ends the value that it is in, and what is left is no entry. -/
theorem quote_notReadBack :
    (ofColumn quoteColumn {} {}).tags =
        "gorm:\"column:mark;type:varchar(8);not null;default:\"\" json:\"mark\"" ∧
      Go.StructTag.entries? (ofColumn quoteColumn {} {}).tags = none ∧
      ¬ (ofColumn quoteColumn {} {}).ReadsBack := by
  have htags : (ofColumn quoteColumn {} {}).tags =
      "gorm:\"column:mark;type:varchar(8);not null;default:\"\" json:\"mark\"" := by
    decide +kernel
  have hentries : Go.StructTag.entries? (ofColumn quoteColumn {} {}).tags = none := by
    rw [htags]
    decide +kernel
  refine ⟨htags, hentries, fun h => ?_⟩
  rw [h.entries] at hentries
  cases hentries

end Field
end GormForge
