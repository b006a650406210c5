import GormForge.Proofs.Naming.Raising
import GormForge.Proofs.Text.Replacing
import GormForge.Scaffold.Name

/-!
# Stems of scaffold names

What a name argument keeps of the text between its directory and a trailing `.go`.

**Input.**  A directory that is empty or ends in a slash, and a stem of ASCII characters without
slashes that does not end in `.go` itself.

**Algorithm.**  The first letter is raised, and then each `.go` is removed, wherever it stands.

**Results.**
* `parse?_directory_append`: the directory is split off, and the rest is read by itself.
* `parse?_stem_iff`: a trailing `.go` makes no difference, and the stem is kept exactly if no
  other `.go` stands in it.
* `goods_shortened`: a stem that loses its middle and is an identifier all the same.
-/

namespace GormForge

namespace Text

variable {c mark : Char}
variable {cs needle : List Char}

/-! ## Raising a letter -/

theorem eq_toUpper_iff
    (hmark : mark.isAlpha = false) :
    mark = c.toUpper ↔ mark = c := by
  constructor
  · rintro rfl
    rw [Char.isAlpha_toUpper_eq_isAlpha] at hmark
    have hlower : ¬ c.isLower = true := by
      intro h
      simp [Char.isAlpha, h] at hmark
    exact Char.toUpper_eq_of_not_isLower hlower
  · rintro rfl
    have hlower : ¬ mark.isLower = true := by
      intro h
      simp [Char.isAlpha, h] at hmark
    exact (Char.toUpper_eq_of_not_isLower hlower).symm

/-- What begins with a character that is no letter occurs as before when a letter is raised. -/
theorem isInfix_toUpper_cons_iff
    (hmark : mark.isAlpha = false) :
    mark :: needle <:+: c.toUpper :: cs ↔ mark :: needle <:+: c :: cs := by
  simp only [List.infix_cons_iff, List.cons_prefix_cons, eq_toUpper_iff hmark]

theorem isSuffix_toUpper_cons_iff
    (hmark : mark.isAlpha = false) :
    mark :: needle <:+ c.toUpper :: cs ↔ mark :: needle <:+ c :: cs := by
  simp only [List.suffix_cons_iff, List.cons.injEq, eq_toUpper_iff hmark]

theorem upperFirstChars_cons
    (hc : c.toNat < 0x80)
    (cs : List Char) :
    upperFirstChars (c :: cs) = c.toUpper :: cs := by
  simp [upperFirstChars, upperChar, hc]

end Text

namespace ScaffoldName

variable {directory stem : String}
variable {front file : List Char}

/-! ## Directories -/

theorem splitDirectory_append
    (hfront : front = [] ∨ front.getLast? = some '/')
    (hfile : ∀ c ∈ file, isSlash c = false) :
    splitDirectory (front ++ file) = (front, file) := by
  have hnone : front.reverse.takeWhile (!isSlash ·) = [] := by
    rcases hfront with rfl | hlast
    · rfl
    · obtain ⟨init, rfl⟩ := List.getLast?_eq_some_iff.mp hlast
      simp [isSlash]
  have htake : (front ++ file).reverse.takeWhile (!isSlash ·) = file.reverse := by
    rw [List.reverse_append, List.takeWhile_append_of_pos (by simpa using hfile), hnone]
    simp
  simp only [splitDirectory, htake, List.reverse_reverse]
  simp

/-- The name of a file that is left in a directory, if anything is left. -/
def ofRest? (front rest : List Char) : Option ScaffoldName :=
  match Text.lowerFirstChars rest with
  | [] => none
  | first :: others =>
    some {
      directory := if front = [] then none else some ⟨String.ofList front⟩
      name := String.ofList rest
      lowerName := String.ofList (first :: others)
      firstChar := String.singleton first }

theorem ofRest?_eq_some
    {rest : List Char}
    (front : List Char)
    (hrest : rest ≠ []) :
    ∃ name, ofRest? front rest = some name ∧ name.name = String.ofList rest ∧
      name.directory = if front = [] then none else some ⟨String.ofList front⟩ := by
  obtain ⟨c, cs, rfl⟩ := List.exists_cons_of_ne_nil hrest
  unfold ofRest?
  cases hlower : Text.lowerFirstChars (c :: cs) with
  | nil =>
      rw [Text.lowerFirstChars, List.append_eq_nil_iff] at hlower
      exact absurd hlower.1 (Text.lowerChar_ne_nil c)
  | cons first others => exact ⟨_, rfl, rfl, rfl⟩

/-- The directory is split off, and the rest is read by itself. -/
theorem parse?_directory_append
    {file : String}
    (hdirectory : directory = "" ∨ directory.toList.getLast? = some '/')
    (hfile : ∀ c ∈ file.toList, isSlash c = false) :
    parse? (directory ++ file) =
      ofRest? directory.toList
        (Text.replaceAll ".go".toList [] (Text.upperFirstChars file.toList)) := by
  have hfront : directory.toList = [] ∨ directory.toList.getLast? = some '/' :=
    hdirectory.imp_left String.toList_eq_nil_iff.mpr
  unfold parse?
  rw [String.toList_append, splitDirectory_append hfront hfile]
  rfl

/-! ## Stems -/

/-- A `.go` at the end is removed by itself. -/
theorem removeGo_append
    (cs : List Char) :
    Text.replaceAll ".go".toList [] (cs ++ ".go".toList) =
      Text.replaceAll ".go".toList [] cs := by
  have happend := @Text.replaceAll_append_pattern '.' "go".toList (by decide) [] cs
  rwa [List.append_nil] at happend

/-- A name is a stem whose first letter was raised. -/
def Keeps (name : ScaffoldName) (stem : String) : Prop :=
  ∃ c cs, stem.toList = c :: cs ∧ name.name.toList = c.toUpper :: cs

/-- A trailing `.go` makes no difference.  The directory is the one that was given, and the stem
is kept exactly if no other `.go` stands in it. -/
theorem parse?_stem_iff
    (hdirectory : directory = "" ∨ directory.toList.getLast? = some '/')
    (hstem : stem ≠ "")
    (hascii : ∀ c ∈ stem.toList, c.toNat < 0x80)
    (hslash : ∀ c ∈ stem.toList, c ≠ '/' ∧ c ≠ '\\')
    (hend : ¬ ".go".toList <:+ stem.toList) :
    parse? (directory ++ stem ++ ".go") = parse? (directory ++ stem) ∧
      ∃ name, parse? (directory ++ stem) = some name ∧
        name.directory = (if directory = "" then none else some ⟨directory⟩) ∧
        (name.Keeps stem ↔ ¬ ".go".toList <:+: stem.toList) := by
  obtain ⟨c, cs, hchars⟩ := List.exists_cons_of_ne_nil (mt String.toList_eq_nil_iff.mp hstem)
  rw [hchars] at hascii hslash hend ⊢
  have hslashes : ∀ d ∈ stem.toList, isSlash d = false := by
    intro d hd
    rw [hchars] at hd
    simpa [isSlash] using hslash d hd
  have hslashesGo : ∀ d ∈ (stem ++ ".go").toList, isSlash d = false := by
    rw [String.toList_append, List.forall_mem_append]
    exact ⟨hslashes, by simp [isSlash]⟩
  have hraise := Text.upperFirstChars_cons (hascii c (List.mem_cons_self ..))
  -- with the `.go` or without it, the same text is left in the directory
  have hplain : parse? (directory ++ stem) =
      ofRest? directory.toList (Text.replaceAll ".go".toList [] (c.toUpper :: cs)) := by
    rw [parse?_directory_append hdirectory hslashes, hchars, hraise]
  have hgo : parse? (directory ++ stem ++ ".go") =
      ofRest? directory.toList (Text.replaceAll ".go".toList [] (c.toUpper :: cs)) := by
    rw [String.append_assoc, parse?_directory_append hdirectory hslashesGo, String.toList_append,
      hchars, List.cons_append, hraise, ← List.cons_append, removeGo_append]
  have hleft : Text.replaceAll ".go".toList [] (c.toUpper :: cs) ≠ [] := by
    intro hnil
    have hsuffix := Text.isSuffix_of_removeAll_eq_nil (by decide) (by simp) hnil
    exact hend ((Text.isSuffix_toUpper_cons_iff (by decide)).mp hsuffix)
  obtain ⟨name, hname, hrest, hdir⟩ := ofRest?_eq_some directory.toList hleft
  refine ⟨hgo.trans hplain.symm, name, hplain.trans hname, by simpa using hdir, ?_⟩
  have hkeeps : name.Keeps stem ↔
      Text.replaceAll ".go".toList [] (c.toUpper :: cs) = c.toUpper :: cs := by
    simp [Keeps, hchars, hrest]
  rw [hkeeps, Text.removeAll_eq_self_iff (by decide)]
  exact not_congr (Text.isInfix_toUpper_cons_iff (by decide))

/-- The stem `order.v2` is kept below `admin/`, with a `.go` at the end and without. -/
theorem order_v2_kept :
    parse? ("admin/" ++ "order.v2" ++ ".go") = parse? ("admin/" ++ "order.v2") ∧
      ∃ name, parse? ("admin/" ++ "order.v2") = some name ∧
        name.directory = some ⟨"admin/"⟩ ∧ name.Keeps "order.v2" := by
  obtain ⟨hsame, name, hname, hdirectory, hkeeps⟩ :=
    @parse?_stem_iff "admin/" "order.v2" (Or.inr (by decide)) (by decide) (by simp) (by simp)
      (by decide +kernel)
  exact ⟨hsame, name, hname, hdirectory, hkeeps.mpr (by decide +kernel)⟩

/-- The stem `cat.goods` loses its middle: what is left is an identifier, so that the name of
another file is taken for it. -/
theorem goods_shortened :
    ¬ ".go".toList <:+ "cat.goods".toList ∧
      ∃ name, parse? "cat.goods" = some name ∧
        name.name = "Catods" ∧ name.fileName = "catods.go" ∧
        Go.isExportedWord name.name = true ∧ ¬ name.Keeps "cat.goods" := by
  refine ⟨by decide +kernel, ⟨none, "Catods", "catods", "c"⟩, by decide +kernel, rfl,
    by decide +kernel, by decide +kernel, ?_⟩
  rintro ⟨c, cs, hchars, hname⟩
  have hlength : (c.toUpper :: cs).length = 6 := congrArg List.length hname.symm
  have hstem : (c :: cs).length = 9 := congrArg List.length hchars.symm
  simp only [List.length_cons] at hlength hstem
  omega

end ScaffoldName
end GormForge
