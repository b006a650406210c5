import GormForge.Go.Identifier
import GormForge.Naming.Convention
import GormForge.Proofs.Text.Parts

/-!
# Names of structs

Which characters a naming convention can produce.

**Results.**
* `notMem_upperChar`, `notMem_lowerChar`: a letter whose case changes becomes letters.
* `NamingConvention.noUnderscore_structName`: no struct name holds an underscore.
* `NamingConvention.notMem_structName`: no other mark gets into a name that was not there.
* `Go.lowerFirst_injective`: exported words that differ do so with a small first letter, too.
-/

namespace GormForge
namespace Text

variable {c x : Char}
variable {cs : List Char}

/-- A character of ASCII that is no letter, like an underscore or a slash. -/
structure IsMark (x : Char) : Prop where
  pos : 0 < x.toNat
  ascii : x.toNat < 0x80
  notAlpha : x.isAlpha = false

theorem isMark_underscore : IsMark '_' :=
  ⟨by decide, by decide, by decide⟩

theorem isMark_slash : IsMark '/' :=
  ⟨by decide, by decide, by decide⟩

/-! ## Case tables -/

/-- A code point outside ASCII or of a letter. -/
def IsLetterCode (code : Nat) : Prop :=
  0x80 ≤ code ∨ (Char.ofNat code).isAlpha = true

instance (code : Nat) : Decidable (IsLetterCode code) :=
  inferInstanceAs (Decidable (_ ∨ _))

theorem IsMark.ne_ofNat
    (hx : IsMark x)
    {code : Nat}
    (h : IsLetterCode code) :
    x ≠ Char.ofNat code := by
  rintro rfl
  rcases h with hlarge | halpha
  · by_cases hvalid : code.isValidChar
    · have hascii : (Char.ofNat code).toNat < 0x80 := hx.ascii
      have hcode : Char.ofNat code = Char.ofNatAux code hvalid := dif_pos hvalid
      rw [hcode] at hascii
      change code < 0x80 at hascii
      omega
    · have hzero : Char.ofNat code = '\x00' := dif_neg hvalid
      have hpos := hx.pos
      rw [hzero] at hpos
      exact absurd hpos (by decide)
  · rw [hx.notAlpha] at halpha
    cases halpha

/-- Ranges whose members are mapped outside ASCII or, when there is one, to a letter. -/
def MapsToLetters (ranges : List CaseRange) : Prop :=
  ∀ range ∈ ranges,
    0x80 ≤ range.target ∨ (range.first = range.last ∧ IsLetterCode range.target)

instance (ranges : List CaseRange) : Decidable (MapsToLetters ranges) :=
  inferInstanceAs (Decidable (∀ range ∈ ranges, _))

theorem mapsToLetters_upperRanges : MapsToLetters upperRanges := by
  decide +kernel

theorem mapsToLetters_lowerRanges : MapsToLetters lowerRanges := by
  decide +kernel

theorem isLetterCode_of_caseImage?
    {ranges : List CaseRange}
    {code image : Nat}
    (hranges : MapsToLetters ranges)
    (h : caseImage? ranges code = some image) :
    IsLetterCode image := by
  obtain ⟨range, hrange, himage⟩ := List.exists_of_findSome?_eq_some h
  unfold CaseRange.image? at himage
  split at himage
  · next hin =>
      cases himage
      rcases hranges range hrange with hlarge | ⟨hsingle, hletter⟩
      · exact Or.inl (by omega)
      · obtain rfl : code = range.first := by omega
        simpa using hletter
  · cases himage

theorem isLetterCode_of_upperExpansions
    {code image : Nat}
    {codes : List Nat}
    (h : upperExpansions.lookup code = some codes)
    (himage : image ∈ codes) :
    IsLetterCode image := by
  have hall : ∀ entry ∈ upperExpansions, ∀ image ∈ entry.2, IsLetterCode image := by
    decide +kernel
  obtain ⟨front, back, heq, -⟩ := List.lookup_eq_some_iff.mp h
  exact hall (code, codes) (by rw [heq]; simp) image himage

/-! ## Letters -/

/-- The case of ASCII letters, checked one by one. -/
theorem case_ascii
    (hc : c.toNat < 0x80) :
    (c.toUpper = c ∨ c.toUpper.isAlpha = true) ∧
      (c.toLower = c ∨ c.toLower.isAlpha = true) ∧
      (c.isUpper = true → c.toLower.toUpper = c) := by
  have hall : ∀ code < 0x80,
      ((Char.ofNat code).toUpper = Char.ofNat code ∨ (Char.ofNat code).toUpper.isAlpha = true) ∧
        ((Char.ofNat code).toLower = Char.ofNat code ∨
          (Char.ofNat code).toLower.isAlpha = true) ∧
        ((Char.ofNat code).isUpper = true →
          (Char.ofNat code).toLower.toUpper = Char.ofNat code) := by
    decide +kernel
  have hcode := hall c.toNat hc
  rwa [Char.ofNat_toNat] at hcode

/-- A character whose case changes becomes letters only. -/
theorem notMem_upperChar
    (hx : IsMark x)
    (hne : x ≠ c) :
    x ∉ upperChar c := by
  unfold upperChar
  split
  · next hc =>
      intro hmem
      obtain rfl := List.mem_singleton.mp hmem
      rcases (case_ascii hc).1 with heq | halpha
      · exact hne heq
      · rw [hx.notAlpha] at halpha
        cases halpha
  · split
    · next codes hcodes =>
        intro hmem
        obtain ⟨code, hcode, heq⟩ := List.mem_map.mp hmem
        exact hx.ne_ofNat (isLetterCode_of_upperExpansions hcodes hcode) heq.symm
    · cases himage : caseImage? upperRanges c.toNat with
      | none => simpa using hne
      | some image =>
          simpa using hx.ne_ofNat (isLetterCode_of_caseImage? mapsToLetters_upperRanges himage)

theorem notMem_lowerChar
    (hx : IsMark x)
    (hne : x ≠ c) :
    x ∉ lowerChar c := by
  unfold lowerChar
  split
  · next hc =>
      intro hmem
      obtain rfl := List.mem_singleton.mp hmem
      rcases (case_ascii hc).2.1 with heq | halpha
      · exact hne heq
      · rw [hx.notAlpha] at halpha
        cases halpha
  · split
    · have hdot : x ≠ Char.ofNat 0x307 := hx.ne_ofNat (Or.inl (by decide))
      have hi : x ≠ Char.ofNat 0x69 := hx.ne_ofNat (Or.inr (by decide))
      simpa using ⟨hi, hdot⟩
    · cases himage : caseImage? lowerRanges c.toNat with
      | none => simpa using hne
      | some image =>
          simpa using hx.ne_ofNat (isLetterCode_of_caseImage? mapsToLetters_lowerRanges himage)

theorem lowerChar_ne_nil
    (c : Char) :
    lowerChar c ≠ [] := by
  unfold lowerChar
  split
  · simp
  · split <;> simp

theorem notMem_upperFirstChars
    (hx : IsMark x)
    (h : x ∉ cs) :
    x ∉ upperFirstChars cs := by
  cases cs with
  | nil => exact h
  | cons c cs =>
      rw [List.mem_cons, not_or] at h
      simp only [upperFirstChars, List.mem_append, not_or]
      exact ⟨notMem_upperChar hx h.1, h.2⟩

theorem notMem_lowerFirst
    {s : String}
    (hx : IsMark x)
    (h : x ∉ s.toList) :
    x ∉ (lowerFirst s).toList := by
  unfold lowerFirst
  rw [String.toList_ofList]
  cases hs : s.toList with
  | nil => simp [lowerFirstChars]
  | cons c cs =>
      rw [hs, List.mem_cons, not_or] at h
      simp only [lowerFirstChars, List.mem_append, not_or]
      exact ⟨notMem_lowerChar hx h.1, h.2⟩

end Text

/-! ## Struct names -/

namespace Naming

variable {x : Char}
variable {cs : List Char}

/-- Raising an initialism brings in its capitals only. -/
theorem notMem_raiseFrom
    {capitals word : List Char}
    {skip : Nat}
    (hcapitals : x ∉ capitals)
    (h : x ∉ cs) :
    x ∉ raiseFrom capitals word skip cs := by
  fun_induction raiseFrom capitals word skip cs with
  | case1 => simp
  | case2 skip c cs ih => exact ih fun hmem => h (List.mem_cons_of_mem _ hmem)
  | case3 c cs hnone ih =>
      rw [List.mem_cons, not_or] at h ⊢
      exact ⟨h.1, ih h.2⟩
  | case4 c cs hafter => exact hcapitals
  | case5 c cs next rest hafter hnext ih =>
      rw [List.mem_cons, not_or] at h
      have hword : c :: cs = word ++ next :: rest := Text.afterPrefix?_eq_some_iff.mp hafter
      have hne : x ≠ next := by
        rintro rfl
        have hmem : x ∈ c :: cs := by simp [hword]
        rcases List.mem_cons.mp hmem with heq | hmem
        · exact h.1 heq
        · exact h.2 hmem
      simp only [List.mem_append, List.mem_cons, not_or]
      exact ⟨hcapitals, hne, ih h.2⟩
  | case6 c cs next rest hafter hnext ih =>
      rw [List.mem_cons, not_or] at h ⊢
      exact ⟨h.1, ih h.2⟩

/-- Raising the initialisms brings in letters and digits only. -/
theorem notMem_raiseInitialisms
    (hx : x.isAlphanum = false)
    (h : x ∉ cs) :
    x ∉ raiseInitialisms cs := by
  have hcapitals : ∀ initialism ∈ commonInitialisms,
      initialism.toList.all Char.isAlphanum = true := by
    decide
  unfold raiseInitialisms
  generalize commonInitialisms = initialisms at hcapitals
  induction initialisms generalizing cs with
  | nil => exact h
  | cons initialism rest ih =>
      have hinitialism : x ∉ initialism.toList := by
        intro hmem
        rw [List.all_eq_true.mp (hcapitals initialism (List.mem_cons_self ..)) x hmem] at hx
        cases hx
      refine ih (notMem_raiseFrom hinitialism h) fun other hother => ?_
      exact hcapitals other (List.mem_cons_of_mem _ hother)

/-- Joining the words of a name brings in letters and digits only. -/
theorem notMem_schemaName
    {name : String}
    (hx : Text.IsMark x)
    (hdigit : x.isDigit = false)
    (h : ∀ word ∈ name.toList.splitOnP (fun c => c == '_' || c == ' '), x ∉ word) :
    x ∉ (schemaName name).toList := by
  unfold schemaName
  rw [String.toList_ofList]
  refine notMem_raiseInitialisms (by simp [Char.isAlphanum, hx.notAlpha, hdigit]) fun hmem => ?_
  obtain ⟨word, hword, hmem⟩ := List.mem_flatMap.mp hmem
  exact Text.notMem_upperFirstChars hx (h word hword) hmem

theorem noUnderscore_schemaName
    (name : String) :
    '_' ∉ (schemaName name).toList := by
  refine notMem_schemaName Text.isMark_underscore (by decide) fun word hword hin => ?_
  simpa using Text.not_of_mem_splitOnP hword hin

/-! ## Singular -/

variable {P : Char → Prop}

/-- The singular of a word is made of its characters, letters and digits. -/
theorem forall_mem_singularWord
    {word lowered : List Char}
    (halphanum : ∀ c : Char, c.isAlphanum = true → P c)
    (h : ∀ c ∈ word, P c) :
    ∀ c ∈ singularWord word lowered, P c := by
  have hdrop : ∀ n, ∀ c ∈ dropEnd n word, P c := fun n c hc =>
    h c (List.mem_of_mem_take hc)
  have hirregular : ∀ entry ∈ irregular, entry.2.toList.all Char.isAlphanum = true := by
    decide
  unfold singularWord
  split
  · exact h
  · split
    · next singular hlookup =>
        obtain ⟨front, back, heq, -⟩ := List.lookup_eq_some_iff.mp hlookup
        have hletters := hirregular (String.ofList lowered, singular) (by rw [heq]; simp)
        exact fun c hc => halphanum c (List.all_eq_true.mp hletters c hc)
    · split
      · intro c hc
        rcases List.mem_append.mp hc with hc | hc
        · exact hdrop 3 c hc
        · rw [List.mem_singleton.mp hc]
          exact halphanum 'y' (by decide)
      · split
        · exact hdrop 2
        · split
          · exact h
          · split
            · exact hdrop 1
            · exact h

/-- The singular of a name is made of its characters, letters and digits. -/
theorem forall_mem_singularize
    {name : String}
    (halphanum : ∀ c : Char, c.isAlphanum = true → P c)
    (h : ∀ c ∈ name.toList, P c) :
    ∀ c ∈ (singularize name).toList, P c := by
  have hparts : name.toList = (splitLastWord name.toList).1 ++ (splitLastWord name.toList).2 := by
    unfold splitLastWord
    split
    · next hsplit => exact Text.eq_of_splitLast? hsplit
    · rfl
  rw [hparts] at h
  unfold singularize
  rw [String.toList_ofList]
  intro c hc
  rcases List.mem_append.mp hc with hc | hc
  · exact h c (List.mem_append_left _ hc)
  · exact forall_mem_singularWord halphanum (fun c hc => h c (List.mem_append_right _ hc)) c hc

end Naming

namespace NamingConvention

/-- What is left of a name without its prefix is made of its characters. -/
theorem mem_of_mem_withoutPrefix
    {convention : NamingConvention}
    {name : String}
    {c : Char}
    (h : c ∈ (convention.withoutPrefix name).toList) :
    c ∈ name.toList := by
  unfold withoutPrefix at h
  split at h
  · next rest hafter =>
      rw [Text.afterPrefix?_eq_some_iff] at hafter
      rw [String.toList_ofList] at h
      rw [hafter]
      exact List.mem_append_right _ h
  · exact h

/-- No struct name holds an underscore. -/
theorem noUnderscore_structName
    (convention : NamingConvention)
    (table : String) :
    '_' ∉ (convention.structName table).toList :=
  Naming.noUnderscore_schemaName _

/-- A struct name holds no mark that its table does not hold. -/
theorem notMem_structName
    {x : Char}
    {table : String}
    (convention : NamingConvention)
    (hx : Text.IsMark x)
    (hdigit : x.isDigit = false)
    (h : x ∉ table.toList) :
    x ∉ (convention.structName table).toList := by
  have hplain : x ∉ (convention.withoutPrefix table).toList := fun hmem =>
    h (mem_of_mem_withoutPrefix hmem)
  have hsingular : x ∉ (Naming.singularize (convention.withoutPrefix table)).toList := by
    have hne : ∀ c ∈ (convention.withoutPrefix table).toList, c ≠ x := fun c hc heq =>
      hplain (heq ▸ hc)
    refine fun hmem => Naming.forall_mem_singularize (fun c hc => ?_) hne x hmem rfl
    rintro rfl
    simp [Char.isAlphanum, hx.notAlpha, hdigit] at hc
  unfold structName
  refine Naming.notMem_schemaName hx hdigit fun word hword hmem => ?_
  have hflat := List.mem_flatten.mpr ⟨word, hword, hmem⟩
  rw [Text.flatten_splitOnP] at hflat
  have hname := (List.mem_filter.mp hflat).1
  split at hname
  · exact hplain hname
  · exact hsingular hname

end NamingConvention

/-! ## Exported words -/

namespace Go

/-- An exported word begins with a capital, and its characters are of ASCII and no slashes. -/
theorem isExportedWord_cons
    {s : String}
    (h : isExportedWord s = true) :
    ∃ c cs, s.toList = c :: cs ∧ c.isUpper = true ∧ c.toNat < 0x80 := by
  unfold isExportedWord at h
  rw [Bool.and_eq_true] at h
  obtain ⟨-, hhead⟩ := h
  cases hs : s.toList with
  | nil => simp [hs] at hhead
  | cons c cs =>
      have hupper : c.isUpper = true := by simpa [hs] using hhead
      refine ⟨c, cs, rfl, hupper, ?_⟩
      have hrange : 'A'.val ≤ c.val ∧ c.val ≤ 'Z'.val := of_decide_eq_true hupper
      change c.val.toNat < 0x80
      exact Nat.lt_of_le_of_lt hrange.2 (by decide)

/-- Exported words that differ do so with a small first letter, too. -/
theorem lowerFirst_injective
    {s t : String}
    (hs : isExportedWord s = true)
    (ht : isExportedWord t = true)
    (h : Text.lowerFirst s = Text.lowerFirst t) :
    s = t := by
  obtain ⟨c, cs, hcs, hupper, hascii⟩ := isExportedWord_cons hs
  obtain ⟨d, ds, hds, hupper', hascii'⟩ := isExportedWord_cons ht
  have hlists := congrArg String.toList h
  simp only [Text.lowerFirst, String.toList_ofList, hcs, hds, Text.lowerFirstChars, Text.lowerChar,
    hascii, hascii', if_true, List.singleton_append, List.cons.injEq] at hlists
  obtain ⟨hfirst, rfl⟩ := hlists
  have hsame : c = d := by
    rw [← (Text.case_ascii hascii).2.2 hupper, hfirst, (Text.case_ascii hascii').2.2 hupper']
  rw [← String.toList_inj, hcs, hds, hsame]

theorem isWord_of_isExportedWord
    {s : String}
    (h : isExportedWord s = true) :
    isWord s = true := by
  unfold isExportedWord at h
  rw [Bool.and_eq_true] at h
  exact h.1

theorem isWord_of_isPackageName
    {s : String}
    (h : isPackageName s = true) :
    isWord s = true := by
  unfold isPackageName at h
  rw [Bool.and_eq_true] at h
  exact h.1

theorem notMem_of_wordChars
    {s : String}
    {c : Char}
    (h : ∀ d ∈ s.toList, isWordChar d = true)
    (hc : isWordChar c = false) :
    c ∉ s.toList := by
  intro hmem
  rw [h c hmem] at hc
  cases hc

theorem notMem_of_isWord
    {s : String}
    {c : Char}
    (h : isWord s = true)
    (hc : isWordChar c = false) :
    c ∉ s.toList :=
  notMem_of_wordChars (isWord_iff.mp h).2 hc

end Go
end GormForge
