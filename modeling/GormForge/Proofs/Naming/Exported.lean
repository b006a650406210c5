import GormForge.Proofs.Naming.Skeleton

/-!
# Exported names

When the field of a column gets a name that other packages can see.

**Input.**  Columns whose names begin with a letter and go on in letters, digits and underscores.

**Algorithm.**  Titling raises the first letter, and neither an initialism nor the casing of `ID`
lowers it again.  So all depends on the letter being still there in the singular.  Every ending
that is cut off leaves something in front of it, but for the ending `s` of the word `s`.

**Results.**
* `Naming.head?_singularize`: the singular of a name begins with a letter unless the name is a
  single `s`.
* `Field.exported_or_empty`: the name of a field is an exported word, or it is empty and the column
  is called `s` or `S`.
-/

namespace GormForge

/-! ## First characters -/

namespace Text

variable {cs : List Char}

theorem head?_append_of_any
    {p : Char → Bool}
    (h : cs.head?.any p = true)
    (ds : List Char) :
    (cs ++ ds).head?.any p = true := by
  cases cs with
  | nil => cases h
  | cons c cs => exact h

/-- A text of ASCII is lowered character by character. -/
theorem toList_lower
    (h : ∀ c ∈ cs, c.toNat < 0x80) :
    (lower (String.ofList cs)).toList = small cs := by
  have hafter : ∀ before, lowerAfter before cs = small cs := by
    induction cs with
    | nil => exact fun _ => rfl
    | cons c cs ih =>
        intro before
        have hc : c.toNat < 0x80 := h c (List.mem_cons_self ..)
        have hsigma : c ≠ capitalSigma := by
          rintro rfl
          exact absurd hc (by decide)
        rw [lowerAfter, if_neg hsigma, ih fun d hd => h d (List.mem_cons_of_mem _ hd), lowerChar,
          if_pos hc, small_cons, List.singleton_append]
  unfold lower
  rw [String.toList_ofList, String.toList_ofList, hafter]

/-- A letter at the front is still there when other characters are left out. -/
theorem head?_filter_of_any
    {p q : Char → Bool}
    (hpq : ∀ c, p c = true → q c = true)
    (h : cs.head?.any p = true) :
    (cs.filter q).head?.any p = true := by
  cases cs with
  | nil => cases h
  | cons c cs =>
      rw [List.filter_cons_of_pos (hpq c h)]
      exact h

/-- A text that is `s` in small letters. -/
theorem eq_of_small_eq_s
    {s : String}
    (hascii : ∀ c ∈ s.toList, c.toNat < 0x80)
    (h : small s.toList = ['s']) :
    s = "s" ∨ s = "S" := by
  have hall : ∀ code < 0x80, (Char.ofNat code).toLower = 's' →
      Char.ofNat code = 's' ∨ Char.ofNat code = 'S' := by
    decide +kernel
  obtain ⟨c, hs, hlower⟩ := List.map_eq_singleton_iff.mp h
  have hc := hall c.toNat (hascii c (by simp [hs]))
  rw [Char.ofNat_toNat] at hc
  simpa [← String.toList_inj, hs] using hc hlower

end Text

/-! ## Singular -/

namespace Naming

variable {cs word : List Char}
variable {name : String}

theorem head?_dropEnd
    {count : Nat}
    (h : count < cs.length) :
    (dropEnd count cs).head? = cs.head? := by
  unfold dropEnd
  rw [List.head?_take, if_neg (by omega)]

/-- An ending that is cut off, whole or in part, leaves the first letter of a word, unless it is the
word. -/
theorem head?_dropEnd_of_hasEnding
    {ending : String}
    {count : Nat}
    (h : hasEnding (Text.small word) ending = true)
    (hcount : count ≤ ending.toList.length)
    (hmore : count < ending.toList.length ∨ Text.small word ≠ ending.toList) :
    (dropEnd count word).head? = word.head? := by
  unfold hasEnding Text.endsWith at h
  obtain ⟨front, hfront⟩ := Option.isSome_iff_exists.mp h
  rw [Text.beforeSuffix?_eq_some_iff] at hfront
  have hlength : word.length = front.length + ending.toList.length := by
    rw [← List.length_append, ← hfront]
    exact (List.length_map _).symm
  apply head?_dropEnd
  rcases hmore with hless | hne
  · omega
  · have hpos : 0 < front.length := by
      apply List.length_pos_iff.mpr
      rintro rfl
      exact hne hfront
    omega

/-- The singular of a word begins with a letter if the word does, unless it is a single `s`. -/
theorem head?_singularWord
    (h : word.head?.any Char.isAlpha = true) :
    (singularWord word (Text.small word)).head?.any Char.isAlpha = true ∨
      Text.small word = ['s'] := by
  unfold singularWord
  split
  · exact Or.inl h
  · split
    · next singular hlookup =>
        have hirregular : ∀ entry ∈ irregular, entry.2.toList.head?.any Char.isAlpha = true := by
          decide
        obtain ⟨front, back, heq, -⟩ := List.lookup_eq_some_iff.mp hlookup
        exact Or.inl
          (hirregular (String.ofList (Text.small word), singular) (by rw [heq]; simp))
    · split
      · next hies =>
          rw [Bool.and_eq_true, decide_eq_true_eq] at hies
          have hne : Text.small word ≠ "ies".toList := by
            intro heq
            rw [heq] at hies
            exact absurd hies.1 (by decide)
          left
          apply Text.head?_append_of_any
          rwa [head?_dropEnd_of_hasEnding hies.2 (by decide) (Or.inr hne)]
      · split
        · next hlong =>
            obtain ⟨ending, hending, hhas⟩ := List.any_eq_true.mp hlong
            have htwo : ∀ ending ∈ longEndings, 2 < ending.toList.length := by decide
            have hless := htwo ending hending
            left
            rwa [head?_dropEnd_of_hasEnding hhas (Nat.le_of_lt hless) (Or.inl hless)]
        · split
          · exact Or.inl h
          · split
            · next hs =>
                by_cases hsmall : Text.small word = ['s']
                · exact Or.inr hsmall
                · left
                  rwa [head?_dropEnd_of_hasEnding hs (by decide) (Or.inr hsmall)]
            · exact Or.inl h

/-- The singular of a name begins with a letter if the name does, unless it is a single `s`. -/
theorem head?_singularize
    (hascii : ∀ c ∈ name.toList, c.toNat < 0x80)
    (h : name.toList.head?.any Char.isAlpha = true) :
    (singularize name).toList.head?.any Char.isAlpha = true ∨
      Text.small name.toList = ['s'] := by
  unfold singularize splitLastWord
  cases hsplit : Text.splitLast? ['_'] name.toList with
  | none =>
      have hlower := Text.toList_lower hascii
      rw [String.ofList_toList] at hlower
      simpa [hlower] using head?_singularWord h
  | some parts =>
      obtain ⟨front, word⟩ := parts
      -- the letter stands before the last word
      rw [Text.eq_of_splitLast? hsplit] at h
      cases front with
      | nil => cases h
      | cons c front => exact Or.inl (by simpa using h)

end Naming

/-- The first character of a name stays, whatever the casing of `ID`. -/
theorem IdCasing.head?_apply
    (casing : IdCasing)
    (name : String) :
    (casing.apply name).toList.head? = name.toList.head? := by
  rw [toList_apply]
  cases name.toList with
  | nil => rfl
  | cons c cs => simp [recase, recased]

/-! ## Fields -/

/-- Word characters are told from others by their small letters. -/
theorem Go.isWordChar_toLower
    (c : Char) :
    isWordChar c.toLower = isWordChar c := by
  by_cases hupper : c.isUpper = true
  · have halpha : c.isAlpha = true := by simp [Char.isAlpha, hupper]
    simp [isWordChar, Char.isAlphanum, halpha]
  · rw [Char.toLower_eq_of_not_isUpper hupper]

namespace Field

variable {column : Column}

/-- The name of a field is made of word characters if that of its column is. -/
theorem isWordChar_nameOf
    (naming : NamingConvention)
    (options : FieldOptions)
    (h : Go.isWord column.name = true) :
    ∀ c ∈ (nameOf column naming options).toList, Go.isWordChar c = true := by
  intro c hc
  have hmem : c.toLower ∈ Text.small (nameOf column naming options).toList :=
    List.mem_map_of_mem hc
  rw [small_nameOf naming options h] at hmem
  obtain ⟨d, hd, hlower⟩ := List.mem_map.mp hmem
  rw [← Go.isWordChar_toLower, ← hlower, Go.isWordChar_toLower]
  have hplain : ∀ d ∈ (naming.withoutPrefix column.name).toList, Go.isWordChar d = true :=
    fun d hd => (Go.isWord_iff.mp h).2 d (NamingConvention.mem_of_mem_withoutPrefix hd)
  have hname := (List.mem_filter.mp hd).1
  split at hname
  · exact hplain d hname
  · refine Naming.forall_mem_singularize (fun d hd => ?_) hplain d hname
    simp [Go.isWordChar, hd]

/-- A single `s` leaves nothing of itself. -/
theorem nameOf_eq_empty
    (options : FieldOptions)
    (h : column.name = "s" ∨ column.name = "S") :
    nameOf column {} options = "" := by
  have hfield : ({} : NamingConvention).fieldName column.name = "" := by
    rcases h with h | h <;> rw [h] <;> decide +kernel
  unfold nameOf
  rw [hfield]
  cases options.idCasing <;> rfl

/-- What begins with a letter in the singular is titled. -/
theorem head?_nameOf
    (options : FieldOptions)
    (h : (Naming.singularize column.name).toList.head?.any Char.isAlpha = true) :
    (nameOf column {} options).toList.head?.any Char.isUpper = true := by
  have hplain : ({} : NamingConvention).withoutPrefix column.name = column.name := by
    simp [NamingConvention.withoutPrefix, Text.afterPrefix?]
  have hbare : (({} : NamingConvention).bareName column.name).head?.any Char.isAlpha = true := by
    rw [NamingConvention.bareName, hplain]
    refine Text.head?_filter_of_any (fun c hc => ?_) h
    have hne : ∀ d : Char, d.isAlpha = false → c ≠ d := by
      rintro d hd rfl
      rw [hc] at hd
      cases hd
    simp [Naming.isSeparator, hne '_' (by decide), hne ' ' (by decide)]
  rw [nameOf, IdCasing.head?_apply]
  exact NamingConvention.head?_structName {} hbare

/-- With the plain convention, let the name of a column begin with a letter and go on in letters,
digits and underscores.  Then the name of its field is a word that begins with a capital, but for
a column called `s` or `S`, whose singular is empty: its field has no name. -/
theorem exported_or_empty
    (options : FieldOptions)
    (hword : Go.isWord column.name = true)
    (hletter : column.name.toList.head?.any Char.isAlpha = true) :
    ((ofColumn column {} options).name = "" ↔ column.name = "s" ∨ column.name = "S") ∧
      (Go.isExportedWord (ofColumn column {} options).name = true ↔
        ¬ (column.name = "s" ∨ column.name = "S")) := by
  change (nameOf column {} options = "" ↔ _) ∧
    (Go.isExportedWord (nameOf column {} options) = true ↔ _)
  by_cases hs : column.name = "s" ∨ column.name = "S"
  · rw [nameOf_eq_empty options hs]
    simp [hs, Go.isExportedWord, Go.isWord]
  · have hsingular := (Naming.head?_singularize (Go.ascii_of_isWord hword) hletter).resolve_right
      fun hsmall => hs (Text.eq_of_small_eq_s (Go.ascii_of_isWord hword) hsmall)
    have hupper := head?_nameOf options hsingular
    have hne : nameOf column {} options ≠ "" := by
      intro hempty
      rw [hempty] at hupper
      cases hupper
    have hexported : Go.isExportedWord (nameOf column {} options) = true := by
      rw [Go.isExportedWord, Bool.and_eq_true, Go.isWord_iff]
      exact ⟨⟨by simpa using hne, isWordChar_nameOf {} options hword⟩, hupper⟩
    simp [hs, hne, hexported]

/-- A column of several words gets an exported field with either casing of `ID`. -/
theorem user_ids_exported :
    Go.isWord (GoStruct.intColumn "user_ids").name = true ∧
      (GoStruct.intColumn "user_ids").name.toList.head?.any Char.isAlpha = true ∧
      ∀ casing, Go.isExportedWord
        (ofColumn (GoStruct.intColumn "user_ids") {} { idCasing := casing }).name = true := by
  refine ⟨by decide, by decide, fun casing => ?_⟩
  exact (exported_or_empty { idCasing := casing } (by decide) (by decide)).2.mpr (by decide)

/-- The column `s` gets a field without a name with either casing of `ID`, and a model with that
field is refused. -/
theorem s_without_name :
    Go.isWord (GoStruct.intColumn "s").name = true ∧
      (GoStruct.intColumn "s").name.toList.head?.any Char.isAlpha = true ∧
      (∀ casing, (ofColumn (GoStruct.intColumn "s") {} { idCasing := casing }).name = "") ∧
      (RenderContext.ofModel (GoStruct.ofColumns "posts" "Post" "db" [GoStruct.intColumn "s"] {} {})
        "").invalidReason? = some "field '' is not a Go identifier" := by
  refine ⟨by decide, by decide, fun casing => nameOf_eq_empty _ (Or.inl rfl), ?_⟩
  decide +kernel

end Field
end GormForge
