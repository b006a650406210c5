/-!
# Searching and replacing

Pure string search on lists of characters: leading and trailing pieces, first and last
separators, occurrences and their replacement.

**Results.**  Every splitting function is pinned down by the text it was given:
`afterPrefix?_eq_some_iff`, `beforeSuffix?_eq_some_iff`, `eq_of_splitFirst?` and
`eq_of_splitLast?` say that the pieces concatenate to the input.
-/

namespace GormForge
namespace Text

/-! ## Leading and trailing pieces -/

/-- What follows `lead` in a text that begins with it. -/
def afterPrefix? : List Char → List Char → Option (List Char)
  | [], cs => some cs
  | _ :: _, [] => none
  | p :: ps, c :: cs => if p = c then afterPrefix? ps cs else none

theorem afterPrefix?_eq_some_iff
    {lead cs rest : List Char} :
    afterPrefix? lead cs = some rest ↔ cs = lead ++ rest := by
  induction lead generalizing cs with
  | nil => simp [afterPrefix?, eq_comm]
  | cons p ps ih =>
      cases cs with
      | nil => simp [afterPrefix?]
      | cons c cs =>
          by_cases h : p = c
          · simp [afterPrefix?, h, ih]
          · simp [afterPrefix?, h, Ne.symm h]

/-- Whether a text begins with `lead`. -/
def beginsWith (lead cs : List Char) : Bool :=
  (afterPrefix? lead cs).isSome

theorem beginsWith_iff
    {lead cs : List Char} :
    beginsWith lead cs = true ↔ ∃ rest, cs = lead ++ rest := by
  simp [beginsWith, Option.isSome_iff_exists, afterPrefix?_eq_some_iff]

/-- What precedes `tail` in a text that ends with it. -/
def beforeSuffix? (tail : List Char) : List Char → Option (List Char)
  | [] => if tail = [] then some [] else none
  | c :: cs => if c :: cs = tail then some [] else (beforeSuffix? tail cs).map (c :: ·)

theorem beforeSuffix?_eq_some_iff
    {tail cs front : List Char} :
    beforeSuffix? tail cs = some front ↔ cs = front ++ tail := by
  induction cs generalizing front with
  | nil =>
      by_cases h : tail = []
      · cases front <;> simp [beforeSuffix?, h]
      · cases front <;> simp [beforeSuffix?, h, eq_comm]
  | cons c cs ih =>
      by_cases h : c :: cs = tail
      · subst h
        constructor
        · simp [beforeSuffix?, eq_comm]
        · intro hcs
          have hlen := congrArg List.length hcs
          have hnil : front = [] := by
            cases front with
            | nil => rfl
            | cons f fs =>
                simp at hlen
                omega
          simp [beforeSuffix?, hnil]
      · cases front with
        | nil => simp [beforeSuffix?, h]
        | cons f fs =>
            simp only [beforeSuffix?, h, if_false, Option.map_eq_some_iff, List.cons_append,
              List.cons.injEq]
            constructor
            · rintro ⟨mid, hmid, rfl, rfl⟩
              exact ⟨rfl, ih.1 hmid⟩
            · rintro ⟨rfl, hcs⟩
              exact ⟨fs, ih.2 hcs, rfl, rfl⟩

/-- Whether a text ends with `tail`. -/
def endsWith (tail cs : List Char) : Bool :=
  (beforeSuffix? tail cs).isSome

/-- What stands between `opening` and `closing`, if a text begins and ends with them. -/
def between? (opening closing cs : List Char) : Option (List Char) :=
  (afterPrefix? opening cs).bind (beforeSuffix? closing)

theorem between?_eq_some_iff
    {opening closing cs inner : List Char} :
    between? opening closing cs = some inner ↔ cs = opening ++ (inner ++ closing) := by
  simp [between?, Option.bind_eq_some_iff, afterPrefix?_eq_some_iff,
    beforeSuffix?_eq_some_iff]

/-! ## Separators -/

/-- The pieces before and after the first occurrence of `sep`. -/
def splitFirst? (sep : List Char) : List Char → Option (List Char × List Char)
  | [] => (afterPrefix? sep []).map fun rest => ([], rest)
  | c :: cs =>
    match afterPrefix? sep (c :: cs) with
    | some rest => some ([], rest)
    | none => (splitFirst? sep cs).map fun parts => (c :: parts.1, parts.2)

/-- The pieces and the separator make up the text. -/
theorem eq_of_splitFirst?
    {sep cs front rest : List Char}
    (h : splitFirst? sep cs = some (front, rest)) :
    cs = front ++ sep ++ rest := by
  induction cs generalizing front with
  | nil =>
      simp only [splitFirst?, Option.map_eq_some_iff, Prod.mk.injEq] at h
      obtain ⟨r, hr, rfl, rfl⟩ := h
      simpa using afterPrefix?_eq_some_iff.1 hr
  | cons c cs ih =>
      simp only [splitFirst?] at h
      split at h
      · rename_i r hr
        simp only [Option.some.injEq, Prod.mk.injEq] at h
        obtain ⟨rfl, rfl⟩ := h
        simpa using afterPrefix?_eq_some_iff.1 hr
      · simp only [Option.map_eq_some_iff, Prod.mk.injEq] at h
        obtain ⟨parts, hparts, rfl, rfl⟩ := h
        simp [ih hparts]

/-- The pieces before and after the last occurrence of `sep`. -/
def splitLast? (sep : List Char) : List Char → Option (List Char × List Char)
  | [] => (afterPrefix? sep []).map fun rest => ([], rest)
  | c :: cs =>
    match splitLast? sep cs with
    | some parts => some (c :: parts.1, parts.2)
    | none => (afterPrefix? sep (c :: cs)).map fun rest => ([], rest)

/-- The pieces and the separator make up the text. -/
theorem eq_of_splitLast?
    {sep cs front rest : List Char}
    (h : splitLast? sep cs = some (front, rest)) :
    cs = front ++ sep ++ rest := by
  induction cs generalizing front with
  | nil =>
      simp only [splitLast?, Option.map_eq_some_iff, Prod.mk.injEq] at h
      obtain ⟨r, hr, rfl, rfl⟩ := h
      simpa using afterPrefix?_eq_some_iff.1 hr
  | cons c cs ih =>
      simp only [splitLast?] at h
      split at h
      · rename_i parts hparts
        simp only [Option.some.injEq, Prod.mk.injEq] at h
        obtain ⟨rfl, rfl⟩ := h
        simp [ih hparts]
      · simp only [Option.map_eq_some_iff, Prod.mk.injEq] at h
        obtain ⟨r, hr, rfl, rfl⟩ := h
        simpa using afterPrefix?_eq_some_iff.1 hr

/-! ## Occurrences -/

/-- Whether `needle` occurs in a text as a contiguous piece. -/
def contains (needle : List Char) : List Char → Bool
  | [] => beginsWith needle []
  | c :: cs => beginsWith needle (c :: cs) || contains needle cs

theorem contains_iff
    {needle cs : List Char} :
    contains needle cs = true ↔ ∃ front rest, cs = front ++ needle ++ rest := by
  induction cs with
  | nil =>
      rw [contains, beginsWith_iff]
      constructor
      · rintro ⟨rest, h⟩
        exact ⟨[], rest, by simpa using h⟩
      · rintro ⟨front, rest, h⟩
        have hfront : front = [] := by
          cases front with
          | nil => rfl
          | cons f fs => simp at h
        exact ⟨rest, by simpa [hfront] using h⟩
  | cons c cs ih =>
      rw [contains, Bool.or_eq_true, beginsWith_iff, ih]
      constructor
      · rintro (⟨rest, h⟩ | ⟨front, rest, h⟩)
        · exact ⟨[], rest, by simpa using h⟩
        · exact ⟨c :: front, rest, by simp [h]⟩
      · rintro ⟨front, rest, h⟩
        cases front with
        | nil => exact Or.inl ⟨rest, by simpa using h⟩
        | cons f fs =>
            simp only [List.cons_append, List.cons.injEq] at h
            exact Or.inr ⟨fs, rest, h.2⟩

/-- Replace the occurrences of `pattern`, left to right and without overlap, after
skipping `skip` characters. -/
def replaceFrom (pattern new : List Char) : Nat → List Char → List Char
  | _, [] => []
  | 0, c :: cs =>
    if beginsWith pattern (c :: cs) then
      new ++ replaceFrom pattern new (pattern.length - 1) cs
    else
      c :: replaceFrom pattern new 0 cs
  | skip + 1, _ :: cs => replaceFrom pattern new skip cs

/-- Replace the occurrences of a nonempty `pattern`, left to right and without overlap. -/
def replaceAll (pattern new cs : List Char) : List Char :=
  replaceFrom pattern new 0 cs

/-- The number of bytes of a text in UTF-8. -/
def byteLength : List Char → Nat
  | [] => 0
  | c :: cs => c.utf8Size + byteLength cs

@[simp] theorem byteLength_append
    (cs ds : List Char) :
    byteLength (cs ++ ds) = byteLength cs + byteLength ds := by
  induction cs with
  | nil => simp [byteLength]
  | cons c cs ih => simp [byteLength, ih, Nat.add_assoc]

/-- A text has no more characters than bytes. -/
theorem length_le_byteLength
    (cs : List Char) :
    cs.length ≤ byteLength cs := by
  induction cs with
  | nil => exact Nat.le_refl 0
  | cons c cs ih =>
      have hsize := c.utf8Size_pos
      simp only [byteLength, List.length_cons]
      omega

/-- The number of bytes before the first occurrence of `needle`. -/
def byteOffset? (needle cs : List Char) : Option Nat :=
  (splitFirst? needle cs).map fun parts => byteLength parts.1

/-! ## ASCII case -/

/-- Lower the ASCII capitals of a string and leave the rest. -/
def asciiLower (s : String) : String :=
  String.ofList (s.toList.map Char.toLower)

/-- Equality up to the case of ASCII letters. -/
def eqIgnoringAsciiCase (s t : String) : Bool :=
  asciiLower s == asciiLower t

end Text
end GormForge
