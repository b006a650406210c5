import GormForge.Naming.IdCasing

/-!
# The casings of `ID` compared

What the two rules for the casing of `ID` do to a name, and how they fit together.

**Algorithm.**  One rule replaces every occurrence, and passes over what it has replaced.  The other
goes from character to character and keeps two facts about those before.  Both are the same scan,
which looks at the text before a character and at the text after it, with a different test.  What is
shown of the scan holds of both.

**Results.**
* `applyChars_eq_recase`: both rules are instances of the scan.
* `getElem?_recase`: the character that the scan leaves at a place.
* `apply_consistent`: which characters the rules change, and that the legacy rule has the last word.
-/

namespace GormForge
namespace IdCasing

variable {casing : IdCasing}
variable {cs : List Char}

/-! ## The scan -/

/-- Whether a rule changes the `ID` between a text, given in reverse, and another text. -/
def changes : IdCasing → List Char → List Char → Bool
  | legacy, _, _ => true
  | boundary, before, after => !before.head?.any Char.isUpper && !smallAhead after

/-- What a rule makes of a character between a text, given in reverse, and another text. -/
def recased (casing : IdCasing) (before : List Char) (c : Char) (after : List Char) : Char :=
  if before.head? = some 'I' ∧ c = 'D' ∧ casing.changes before.tail after then 'd' else c

/-- What a rule makes of a text that follows another text, given in reverse. -/
def recase (casing : IdCasing) (before : List Char) : List Char → List Char
  | [] => []
  | c :: cs => casing.recased before c cs :: recase casing (c :: before) cs

theorem recased_eq_or
    (casing : IdCasing)
    (before : List Char)
    (c : Char)
    (after : List Char) :
    casing.recased before c after = c ∨
      (before.head? = some 'I' ∧ c = 'D' ∧ casing.recased before c after = 'd') := by
  rw [recased]
  split
  · next h => exact Or.inr ⟨h.1, h.2.1, rfl⟩
  · exact Or.inl rfl

theorem recased_legacy
    (before : List Char)
    (c : Char)
    (after : List Char) :
    recased legacy before c after = if before.head? = some 'I' ∧ c = 'D' then 'd' else c := by
  simp [recased, changes]

/-- Replacing from left to right meets every occurrence, since no two of them overlap. -/
theorem replaceFrom_eq_recase
    (skip : Nat)
    (before cs : List Char)
    (h : ¬ (before.head? = some 'I' ∧ (cs.drop skip).head? = some 'D')) :
    Text.replaceFrom "ID".toList "Id".toList skip cs = recase legacy before (cs.drop skip) := by
  fun_induction Text.replaceFrom "ID".toList "Id".toList skip cs generalizing before with
  | case1 => simp [recase]
  | case2 c cs hbegins ih =>
      obtain ⟨rest, hrest⟩ := Text.beginsWith_iff.mp hbegins
      obtain ⟨rfl, rfl⟩ : c = 'I' ∧ cs = 'D' :: rest := by simpa using hrest
      rw [ih ('D' :: 'I' :: before) (by simp)]
      simp [recase, recased_legacy]
  | case3 c cs hbegins ih =>
      have hnext : ¬ ((c :: before).head? = some 'I' ∧ cs.head? = some 'D') := by
        rintro ⟨hc, hcs⟩
        obtain ⟨rest, rfl⟩ := List.head?_eq_some_iff.mp hcs
        obtain rfl : c = 'I' := by simpa using hc
        exact hbegins (Text.beginsWith_iff.mpr ⟨rest, rfl⟩)
      have hkept : recased legacy before c cs = c := if_neg fun hd => h ⟨hd.1, by simp [hd.2.1]⟩
      rw [ih (c :: before) hnext]
      simp [recase, hkept]
  | case4 skip c cs ih => exact ih before h

/-- The two facts about the characters before are all that the test looks at. -/
theorem boundaryFrom_eq_recase
    (before cs : List Char) :
    boundaryFrom (before.head?.any Char.isUpper)
        (before.head? == some 'I' && !before.tail.head?.any Char.isUpper) cs =
      recase boundary before cs := by
  induction cs generalizing before with
  | nil => rfl
  | cons c cs ih =>
      rw [boundaryFrom, recase, ← ih (c :: before), recased, changes]
      congr 1
      simp [and_comm, and_left_comm]

/-- Both rules are instances of the scan. -/
theorem applyChars_eq_recase
    (casing : IdCasing)
    (cs : List Char) :
    casing.applyChars cs = recase casing [] cs := by
  cases casing with
  | legacy => exact replaceFrom_eq_recase 0 [] cs (by simp)
  | boundary => exact boundaryFrom_eq_recase [] cs

/-! ## Characters of the result -/

@[simp] theorem length_recase
    (casing : IdCasing)
    (before cs : List Char) :
    (recase casing before cs).length = cs.length := by
  induction cs generalizing before with
  | nil => rfl
  | cons c cs ih => simp [recase, ih]

/-- The character that the scan leaves at a place. -/
theorem getElem?_recase
    (casing : IdCasing)
    (before front : List Char)
    (c : Char)
    (back : List Char) :
    (recase casing before (front ++ c :: back))[front.length]? =
      some (casing.recased (front.reverse ++ before) c back) := by
  induction front generalizing before with
  | nil => rfl
  | cons d front ih => simpa [recase] using ih (d :: before)

/-- The second letter of an `ID` is left as its rule says. -/
theorem getElem?_recase_id
    (casing : IdCasing)
    (front back : List Char) :
    (recase casing [] (front ++ "ID".toList ++ back))[front.length + 1]? =
      some (if casing.changes front.reverse back then 'd' else 'D') := by
  have hplace := getElem?_recase casing [] (front ++ ['I']) 'D' back
  simpa [recased] using hplace

/-- No two characters of a result of the legacy rule are an `ID`. -/
theorem contains_recase_legacy
    (before cs : List Char) :
    Text.contains "ID".toList (recase legacy before cs) = false := by
  induction cs generalizing before with
  | nil => rfl
  | cons c cs ih =>
      rw [recase, Text.contains, ih, Bool.or_false, ← Bool.not_eq_true, Text.beginsWith_iff]
      rintro ⟨rest, hrest⟩
      obtain ⟨hfirst, hsecond⟩ := List.cons.inj hrest
      have hc : c = 'I' := by
        rcases recased_eq_or legacy before c cs with heq | ⟨-, -, heq⟩
        · exact heq.symm.trans hfirst
        · exact absurd (heq.symm.trans hfirst) (by decide)
      cases cs with
      | nil => cases hsecond
      | cons d cs =>
          have hd : recased legacy (c :: before) d cs = 'D' := (List.cons.inj hsecond).1
          rw [recased_legacy, hc] at hd
          split at hd
          · cases hd
          · next hkept => exact hkept ⟨rfl, hd⟩

/-- What a rule has changed already makes no difference to the legacy rule. -/
theorem recase_legacy_recase
    (before before' : List Char)
    (h : before'.head? = some 'I' ↔ before.head? = some 'I') :
    recase legacy before' (recase casing before cs) = recase legacy before cs := by
  induction cs generalizing before before' with
  | nil => rfl
  | cons c cs ih =>
      rw [recase, recase, recase, recased_legacy, recased_legacy]
      rcases recased_eq_or casing before c cs with heq | ⟨hI, rfl, heq⟩
      · rw [heq, ih (c :: before) (c :: before') (by simp)]
        simp only [h]
      · rw [heq, ih ('D' :: before) ('d' :: before') (by simp)]
        simp [hI]

/-! ## Both rules -/

/-- The characters of a name, but for a `D` after an `I`, which may have become small. -/
structure Recases (name result : String) : Prop where
  length_eq : result.length = name.length
  kept_or_lowered : ∀ front c back, name.toList = front ++ c :: back →
    result.toList[front.length]? = some c ∨
      (front.getLast? = some 'I' ∧ c = 'D' ∧ result.toList[front.length]? = some 'd')

theorem toList_apply
    (casing : IdCasing)
    (name : String) :
    (casing.apply name).toList = recase casing [] name.toList := by
  rw [apply, String.toList_ofList, applyChars_eq_recase]

theorem recases_apply
    (casing : IdCasing)
    (name : String) :
    Recases name (casing.apply name) where
  length_eq := by
    rw [← String.length_toList, toList_apply, length_recase, String.length_toList]
  kept_or_lowered := by
    intro front c back hname
    have hplace := getElem?_recase casing [] front c back
    rw [toList_apply, hname, hplace, List.append_nil]
    simpa using recased_eq_or casing front.reverse c back

/-- Both rules keep the characters of a name, but for a `D` after an `I`.  The legacy rule leaves no
`ID`.  The boundary rule changes one exactly if no capital stands before it and no small letter
after it; whatever it changes the legacy rule changes as well. -/
theorem apply_consistent
    (name : String) :
    (∀ casing : IdCasing, Recases name (casing.apply name)) ∧
      Text.contains "ID".toList (legacy.apply name).toList = false ∧
      (∀ front back, name.toList = front ++ "ID".toList ++ back →
        ((boundary.apply name).toList[front.length + 1]? = some 'd' ↔
          front.getLast?.any Char.isUpper = false ∧ back.head?.any Char.isLower = false)) ∧
      legacy.apply (boundary.apply name) = legacy.apply name := by
  refine ⟨fun casing => recases_apply casing name, ?_, ?_, ?_⟩
  · rw [toList_apply]
    exact contains_recase_legacy [] name.toList
  · intro front back hname
    rw [toList_apply, hname, getElem?_recase_id]
    simp [changes, smallAhead]
  · rw [← String.toList_inj, toList_apply, toList_apply, toList_apply]
    exact recase_legacy_recase [] [] Iff.rfl

/-- The word `ID` becomes `Id` by both rules, that in `UUID` by the legacy rule only. -/
theorem userID_uuid_consistent :
    "UserIDUUID".toList = "User".toList ++ "ID".toList ++ "UUID".toList ∧
      (boundary.apply "UserIDUUID").toList[5]? = some 'd' ∧
      "UserIDUUID".toList = "UserIDUU".toList ++ "ID".toList ++ "".toList ∧
      ¬ (boundary.apply "UserIDUUID").toList[9]? = some 'd' ∧
      legacy.apply (boundary.apply "UserIDUUID") = legacy.apply "UserIDUUID" := by
  obtain ⟨-, -, hchanged, hlast⟩ := apply_consistent "UserIDUUID"
  have hword := hchanged "User".toList "UUID".toList rfl
  have hinner := hchanged "UserIDUU".toList "".toList rfl
  exact ⟨rfl, hword.mpr (by decide), rfl, fun h => absurd (hinner.mp h).1 (by decide), hlast⟩

end IdCasing
end GormForge
