import GormForge.Model.Context
import GormForge.Proofs.Naming.IdCasing
import GormForge.Proofs.Naming.Raising
import Mathlib.Data.List.Nodup

/-!
# Names of fields

When the columns of a table get different field names.

**Input.**  Columns whose names are words.

**Algorithm.**  A naming convention removes the prefix, takes the singular and leaves out the
separators.  All that it does beyond that, like the casing of `ID`, is to the case of ASCII
letters.

**Results.**
* `NamingConvention.small_fieldName`: in small letters, a field name is the skeleton of its
  column.
* `Field.notMem_nameOf`: no mark gets into the name of a field that its column does not hold.
* `GoStruct.nodup_fieldNames`: columns with different skeletons get different field names.
-/

namespace GormForge

/-! ## Small letters -/

namespace Text

variable {cs ds : List Char}

/-- The ASCII letters of a text in small letters. -/
def small (cs : List Char) : List Char :=
  cs.map Char.toLower

@[simp] theorem small_cons
    (c : Char)
    (cs : List Char) :
    small (c :: cs) = c.toLower :: small cs := by
  rfl

/-- What is raised is the same in small letters. -/
theorem small_of_raised
    (h : List.Forall₂ RaisedTo cs ds) :
    small ds = small cs := by
  induction h with
  | nil => rfl
  | cons hc _ ih =>
      rw [small_cons, small_cons, ih]
      rcases hc with rfl | rfl
      · rfl
      · rw [Char.toLower_toUpper_eq_toLower]

end Text

/-! ## Casing of `ID` -/

namespace IdCasing

/-- The casing of `ID` is a matter of the case of letters only. -/
theorem small_recase
    (casing : IdCasing)
    (before cs : List Char) :
    Text.small (recase casing before cs) = Text.small cs := by
  induction cs generalizing before with
  | nil => rfl
  | cons c cs ih =>
      rw [recase, Text.small_cons, Text.small_cons, ih]
      rcases recased_eq_or casing before c cs with heq | ⟨-, rfl, heq⟩
      · rw [heq]
      · rw [heq]
        rfl

/-- The casing of `ID` brings in one letter only. -/
theorem mem_recase
    {casing : IdCasing}
    {before cs : List Char}
    {x : Char}
    (h : x ∈ recase casing before cs) :
    x = 'd' ∨ x ∈ cs := by
  induction cs generalizing before with
  | nil => exact Or.inr h
  | cons c cs ih =>
      rw [recase] at h
      rcases List.mem_cons.mp h with hx | hrest
      · rcases recased_eq_or casing before c cs with heq | ⟨-, -, heq⟩
        · rw [hx, heq]
          exact Or.inr (List.mem_cons_self ..)
        · exact Or.inl (hx.trans heq)
      · exact (ih hrest).imp_right (List.mem_cons_of_mem _)

end IdCasing

/-! ## Fields -/

namespace NamingConvention

/-- What a convention leaves of the name of a column, in small letters. -/
def skeleton (convention : NamingConvention) (column : String) : List Char :=
  let column := convention.withoutPrefix column
  let name := if convention.singularTable then column else Naming.singularize column
  Text.small (name.toList.filter fun c => !Naming.isSeparator c)

/-- In small letters, a field name is the skeleton of its column. -/
theorem small_fieldName
    (convention : NamingConvention)
    {column : String}
    (h : ∀ c ∈ column.toList, c.toNat < 0x80) :
    Text.small (convention.fieldName column).toList = convention.skeleton column :=
  Text.small_of_raised (convention.raised_structName h)

end NamingConvention

/-- The characters of a word are of ASCII. -/
theorem Go.ascii_of_isWord
    {s : String}
    (h : isWord s = true) :
    ∀ c ∈ s.toList, c.toNat < 0x80 := by
  intro c hc
  have hword := (isWord_iff.mp h).2 c hc
  simp only [isWordChar, Bool.or_eq_true, beq_iff_eq] at hword
  rcases hword with halphanum | rfl
  · exact Text.ascii_of_isAlphanum halphanum
  · decide

namespace Field

/-- In small letters, the name of a field is the skeleton of its column. -/
theorem small_nameOf
    {column : Column}
    (naming : NamingConvention)
    (options : FieldOptions)
    (h : Go.isWord column.name = true) :
    Text.small (nameOf column naming options).toList = naming.skeleton column.name := by
  rw [nameOf, IdCasing.toList_apply, IdCasing.small_recase]
  exact naming.small_fieldName (Go.ascii_of_isWord h)

/-- The name of a field holds no mark that its column does not hold. -/
theorem notMem_nameOf
    {column : Column}
    {x : Char}
    (naming : NamingConvention)
    (options : FieldOptions)
    (hx : Text.IsMark x)
    (hdigit : x.isDigit = false)
    (h : x ∉ column.name.toList) :
    x ∉ (nameOf column naming options).toList := by
  rw [nameOf, IdCasing.toList_apply]
  intro hmem
  rcases IdCasing.mem_recase hmem with rfl | hname
  · exact absurd hx.notAlpha (by decide)
  · exact naming.notMem_structName hx hdigit h hname

end Field

namespace GoStruct

variable {table structName package : String}
variable {columns : List Column}
variable {naming : NamingConvention}
variable {options : FieldOptions}
variable {model : GoStruct}

theorem fields_of_ofColumns?
    (h : ofColumns? table structName package columns naming options = .ok (some model)) :
    model.fields = columns.map fun column => Field.ofColumn column naming options := by
  rw [eq_of_ofColumns? h]
  rfl

/-- In small letters, the fields of a model are named by the skeletons of its columns, one by
one; so columns with different skeletons get different fields, whatever the casing of `ID`. -/
theorem nodup_fieldNames
    (hmodel : ofColumns? table structName package columns naming options = .ok (some model))
    (hwords : ∀ column ∈ columns, Go.isWord column.name = true) :
    (model.fields.map fun field => Text.small field.name.toList) =
        columns.map (fun column => naming.skeleton column.name) ∧
      ((columns.map fun column => naming.skeleton column.name).Nodup →
        (model.fields.map (·.name)).Nodup) := by
  have hnames : (model.fields.map fun field => Text.small field.name.toList) =
      columns.map fun column => naming.skeleton column.name := by
    rw [fields_of_ofColumns? hmodel, List.map_map]
    exact List.map_congr_left fun column hcolumn =>
      Field.small_nameOf naming options (hwords column hcolumn)
  refine ⟨hnames, fun hnodup => ?_⟩
  rw [← hnames] at hnodup
  refine List.Nodup.of_map (fun name => Text.small name.toList) ?_
  rw [List.map_map]
  exact hnodup

/-- An integer column that is not null. -/
def intColumn (name : String) : Column where
  table := "posts"
  name := name
  databaseType := "int"
  columnType := "int"
  nullable := false

theorem post_fieldNames :
    ∃ model,
      ofColumns? "posts" "Post" "db" (["id", "api_url", "tags"].map intColumn) {} {} =
          .ok (some model) ∧
        (∀ column ∈ ["id", "api_url", "tags"].map intColumn, Go.isWord column.name = true) ∧
        (model.fields.map (·.name)).Nodup := by
  have hmodel : ofColumns? "posts" "Post" "db" (["id", "api_url", "tags"].map intColumn) {} {} =
      .ok (some (ofColumns "posts" "Post" "db" (["id", "api_url", "tags"].map intColumn) {} {})) := by
    rfl
  have hwords : ∀ column ∈ ["id", "api_url", "tags"].map intColumn,
      Go.isWord column.name = true := by
    decide
  exact ⟨_, hmodel, hwords, (nodup_fieldNames hmodel hwords).2 (by decide +kernel)⟩

/-- Columns that differ in their number only share the name of their fields, and nothing is
found wrong with the context of the model. -/
theorem tag_tags_collide :
    ∃ model,
      ofColumns? "posts" "Post" "db" (["tag", "tags"].map intColumn) {} {} = .ok (some model) ∧
        ((["tag", "tags"].map intColumn).map (·.name)).Nodup ∧
        (∀ column ∈ ["tag", "tags"].map intColumn, Go.isWord column.name = true) ∧
        (RenderContext.ofModel model "").invalidReason? = none ∧
        ¬ (model.fields.map (·.name)).Nodup := by
  refine ⟨_, rfl, by decide, by decide, ?_, ?_⟩
  · decide +kernel
  · decide +kernel

end GoStruct
end GormForge
