import GormForge.Proofs.Naming.Structs

/-!
# Identifiers

What a text has to be like to name something in a Go source file, as far as ASCII goes.

**Results.**
* `isIdentifier_iff`: an identifier is a word that does not begin with a digit.
* `isPackageName_iff`: exactly the identifiers name packages.
* `isIdentifier_of_isExportedWord`, `isIdentifier_lowerFirst`: an exported word is an identifier,
  also with a small first character.
-/

namespace GormForge
namespace Go

variable {s t : String}

/-- A nonempty text of ASCII letters, digits and underscores whose first character is no
digit. -/
structure IsIdentifier (s : String) : Prop where
  nonempty : s ≠ ""
  chars : ∀ c ∈ s.toList, c.isAlpha = true ∨ c.isDigit = true ∨ c = '_'
  first : ∀ c ∈ s.toList.head?, c.isDigit = false

theorem isWordChar_iff
    {c : Char} :
    isWordChar c = true ↔ c.isAlpha = true ∨ c.isDigit = true ∨ c = '_' := by
  simp [isWordChar, Char.isAlphanum, or_assoc]

theorem beginsWithDigit_eq_false_iff :
    beginsWithDigit s = false ↔ ∀ c ∈ s.toList.head?, c.isDigit = false := by
  unfold beginsWithDigit
  cases s.toList.head? <;> simp

/-- An identifier is a word that does not begin with a digit. -/
theorem isIdentifier_iff :
    IsIdentifier s ↔ isWord s = true ∧ beginsWithDigit s = false := by
  rw [isWord_iff, beginsWithDigit_eq_false_iff]
  constructor
  · intro h
    exact ⟨⟨by simpa using h.nonempty, fun c hc => isWordChar_iff.mpr (h.chars c hc)⟩, h.first⟩
  · rintro ⟨⟨hne, hchars⟩, hfirst⟩
    exact ⟨by simpa using hne, fun c hc => isWordChar_iff.mp (hchars c hc), hfirst⟩

theorem IsIdentifier.isWord
    (h : IsIdentifier s) :
    isWord s = true :=
  (isIdentifier_iff.mp h).1

/-- An identifier may be followed by a word. -/
theorem IsIdentifier.append
    (hs : IsIdentifier s)
    (ht : Go.isWord t = true) :
    IsIdentifier (s ++ t) := by
  obtain ⟨hne, hchars⟩ := isWord_iff.mp hs.isWord
  have hfirst := hs.first
  rw [isIdentifier_iff, isWord_iff, beginsWithDigit_eq_false_iff, String.toList_append]
  refine ⟨⟨by simp [hne], fun c hc => ?_⟩, ?_⟩
  · rcases List.mem_append.mp hc with hc | hc
    · exact hchars c hc
    · exact (isWord_iff.mp ht).2 c hc
  · rwa [List.head?_append_of_ne_nil _ hne]

theorem isPackageName_iff :
    isPackageName s = true ↔ IsIdentifier s := by
  rw [isIdentifier_iff]
  simp [isPackageName]

theorem beginsWithDigit_of_isExportedWord
    (h : isExportedWord s = true) :
    beginsWithDigit s = false := by
  obtain ⟨c, cs, hcs, hupper, -⟩ := isExportedWord_cons h
  have hletter : 'A'.val ≤ c.val := (of_decide_eq_true hupper : _ ∧ _).1
  rw [beginsWithDigit_eq_false_iff, hcs]
  intro d hd
  obtain rfl : c = d := by simpa using hd
  -- the digits come before the capitals
  have hafter : '9'.val < c.val := UInt32.lt_of_lt_of_le (by decide) hletter
  rw [Char.isDigit, Bool.and_eq_false_iff, decide_eq_false_iff_not, decide_eq_false_iff_not]
  exact Or.inr (UInt32.not_le.mpr hafter)

/-- An exported word is an identifier. -/
theorem isIdentifier_of_isExportedWord
    (h : isExportedWord s = true) :
    IsIdentifier s :=
  isIdentifier_iff.mpr ⟨isWord_of_isExportedWord h, beginsWithDigit_of_isExportedWord h⟩

/-- It stays one when its first character is lowered. -/
theorem isIdentifier_lowerFirst
    (h : isExportedWord s = true) :
    IsIdentifier (Text.lowerFirst s) := by
  obtain ⟨c, cs, hcs, hupper, hascii⟩ := isExportedWord_cons h
  have hall : ∀ code < 0x80, (Char.ofNat code).isUpper = true →
      isWordChar (Char.ofNat code).toLower = true ∧
        (Char.ofNat code).toLower.isDigit = false := by
    decide +kernel
  have hlower := hall c.toNat hascii
  rw [Char.ofNat_toNat] at hlower
  obtain ⟨hchar, hdigit⟩ := hlower hupper
  have hchars := (isWord_iff.mp (isWord_of_isExportedWord h)).2
  rw [hcs] at hchars
  have htext : (Text.lowerFirst s).toList = c.toLower :: cs := by
    simp [Text.lowerFirst, Text.lowerFirstChars, Text.lowerChar, hcs, hascii]
  rw [isIdentifier_iff, isWord_iff, beginsWithDigit_eq_false_iff, htext]
  refine ⟨⟨by simp, List.forall_mem_cons.mpr ⟨hchar, (List.forall_mem_cons.mp hchars).2⟩⟩, ?_⟩
  simpa using hdigit

end Go
end GormForge
