import GormForge.Proofs.Text.Splitting

/-!
# Replacing and removing

What becomes of a text in which a pattern is replaced, occurrence by occurrence.

**Algorithm.**  A text is read from the front: an occurrence is taken as a whole, and a character
at which none begins is kept.  `Replaces` says this without counting characters, so that proofs
go by induction on it.

**Results.**
* `replaces_iff`: replacing does what the relation says.
* `removeAll_eq_self_iff`: removing a pattern changes a text exactly if it occurs there.
* `isSuffix_of_removeAll_eq_nil`: a text of which nothing is left ends in the pattern.
* `replaceAll_append_pattern`: a pattern that does not overlap itself is replaced at the end of
  a text by itself.
-/

namespace GormForge
namespace Text

variable {c p : Char}
variable {pattern new cs out : List Char}

/-- How a text becomes another one by replacing a pattern from the front on. -/
inductive Replaces (pattern new : List Char) : List Char → List Char → Prop
  | nil :
      Replaces pattern new [] []
  | occurrence
      {cs out : List Char}
      (hrest : Replaces pattern new cs out) :
      Replaces pattern new (pattern ++ cs) (new ++ out)
  | keep
      {c : Char} {cs out : List Char}
      (hnot : ¬ pattern <+: c :: cs)
      (hrest : Replaces pattern new cs out) :
      Replaces pattern new (c :: cs) (c :: out)

/-! ## Replacing -/

theorem beginsWith_iff_isPrefix :
    beginsWith pattern cs = true ↔ pattern <+: cs := by
  rw [beginsWith_iff]
  constructor
  · rintro ⟨rest, rfl⟩
    exact List.prefix_append _ _
  · rintro ⟨rest, rfl⟩
    exact ⟨rest, rfl⟩

theorem replaceFrom_eq_drop
    (skip : Nat)
    (cs : List Char) :
    replaceFrom pattern new skip cs = replaceAll pattern new (cs.drop skip) := by
  induction skip generalizing cs with
  | zero => rfl
  | succ skip ih =>
      cases cs with
      | nil => rfl
      | cons c cs => exact ih cs

theorem replaceAll_append
    (h : pattern ≠ [])
    (cs : List Char) :
    replaceAll pattern new (pattern ++ cs) = new ++ replaceAll pattern new cs := by
  obtain ⟨p, ps, rfl⟩ := List.exists_cons_of_ne_nil h
  have hbegins : beginsWith (p :: ps) (p :: (ps ++ cs)) = true :=
    beginsWith_iff_isPrefix.mpr (List.prefix_append _ _)
  rw [List.cons_append, replaceAll, replaceFrom, if_pos hbegins, replaceFrom_eq_drop]
  simp

theorem replaceAll_cons
    (h : ¬ pattern <+: c :: cs) :
    replaceAll pattern new (c :: cs) = c :: replaceAll pattern new cs := by
  rw [replaceAll, replaceFrom, if_neg (mt beginsWith_iff_isPrefix.mp h)]
  rfl

theorem Replaces.replaceAll_eq
    (hpattern : pattern ≠ [])
    (h : Replaces pattern new cs out) :
    replaceAll pattern new cs = out := by
  induction h with
  | nil => rfl
  | occurrence _ ih => rw [replaceAll_append hpattern, ih]
  | keep hnot _ ih => rw [replaceAll_cons hnot, ih]

theorem exists_replaces
    (hpattern : pattern ≠ [])
    (new cs : List Char) :
    ∃ out, Replaces pattern new cs out := by
  -- an occurrence takes more than the first character, so the length carries the induction
  induction hlength : cs.length using Nat.strong_induction_on generalizing cs with
  | _ n ih =>
      cases cs with
      | nil => exact ⟨[], .nil⟩
      | cons c cs =>
          by_cases hbegins : pattern <+: c :: cs
          · obtain ⟨rest, hrest⟩ := hbegins
            have hpos := List.length_pos_of_ne_nil hpattern
            have hshorter : rest.length < n := by
              have hall := congrArg List.length hrest
              rw [List.length_append] at hall
              omega
            obtain ⟨out, hout⟩ := ih rest.length hshorter rest rfl
            exact ⟨new ++ out, hrest ▸ .occurrence hout⟩
          · obtain ⟨out, hout⟩ := ih cs.length (by simp [← hlength]) cs rfl
            exact ⟨c :: out, .keep hbegins hout⟩

theorem replaces_iff
    (hpattern : pattern ≠ []) :
    Replaces pattern new cs out ↔ replaceAll pattern new cs = out := by
  constructor
  · exact Replaces.replaceAll_eq hpattern
  · rintro rfl
    obtain ⟨out, hout⟩ := exists_replaces hpattern new cs
    rwa [hout.replaceAll_eq hpattern]

/-! ## Removing -/

theorem Replaces.length_le
    (h : Replaces pattern [] cs out) :
    out.length ≤ cs.length := by
  induction h with
  | nil => rfl
  | occurrence _ ih =>
      rw [List.nil_append, List.length_append]
      omega
  | keep _ _ ih =>
      simp only [List.length_cons]
      omega

/-- A text gets shorter if the pattern occurs in it. -/
theorem Replaces.length_lt
    (hpattern : pattern ≠ [])
    (h : Replaces pattern [] cs out)
    (hin : pattern <:+: cs) :
    out.length < cs.length := by
  induction h with
  | nil => exact absurd (List.infix_nil.mp hin) hpattern
  | occurrence hrest _ =>
      have hpos := List.length_pos_of_ne_nil hpattern
      have hle := hrest.length_le
      rw [List.nil_append, List.length_append]
      omega
  | keep hnot _ ih =>
      have hlt := ih ((List.infix_cons_iff.mp hin).resolve_left hnot)
      simp only [List.length_cons]
      omega

theorem replaceAll_of_notInfix
    (h : ¬ pattern <:+: cs) :
    replaceAll pattern new cs = cs := by
  induction cs with
  | nil => rfl
  | cons c cs ih =>
      rw [List.infix_cons_iff, not_or] at h
      rw [replaceAll_cons h.1, ih h.2]

/-- Removing a pattern changes a text exactly if it occurs there. -/
theorem removeAll_eq_self_iff
    (hpattern : pattern ≠ []) :
    replaceAll pattern [] cs = cs ↔ ¬ pattern <:+: cs := by
  constructor
  · intro h hin
    have hlt := ((replaces_iff hpattern).mpr h).length_lt hpattern hin
    omega
  · exact replaceAll_of_notInfix

/-- A text of which nothing is left ends in the pattern. -/
theorem Replaces.isSuffix
    (h : Replaces pattern [] cs out)
    (hcs : cs ≠ [])
    (hout : out = []) :
    pattern <:+ cs := by
  induction h with
  | nil => exact absurd rfl hcs
  | @occurrence rest _ _ ih =>
      by_cases hrest : rest = []
      · rw [hrest, List.append_nil]
      · exact (ih hrest hout).trans (List.suffix_append _ _)
  | keep => cases hout

theorem isSuffix_of_removeAll_eq_nil
    (hpattern : pattern ≠ [])
    (hcs : cs ≠ [])
    (h : replaceAll pattern [] cs = []) :
    pattern <:+ cs :=
  ((replaces_iff hpattern).mpr h).isSuffix hcs rfl

/-- A pattern that does not overlap itself is replaced at the end of a text by itself. -/
theorem replaceAll_append_pattern
    (hoverlap : p ∉ pattern)
    (new cs : List Char) :
    replaceAll (p :: pattern) new (cs ++ p :: pattern) =
      replaceAll (p :: pattern) new cs ++ new := by
  have hpattern : p :: pattern ≠ [] := by simp
  obtain ⟨out, hout⟩ := exists_replaces hpattern new cs
  rw [hout.replaceAll_eq hpattern, ← replaces_iff hpattern]
  induction hout with
  | nil =>
      have hone : Replaces (p :: pattern) new (p :: pattern ++ []) (new ++ []) := .occurrence .nil
      simpa using hone
  | occurrence _ ih =>
      rw [List.append_assoc, List.append_assoc]
      exact .occurrence ih
  | keep hnot _ ih =>
      exact .keep (not_prefix_append_stop hoverlap (by simp) hnot pattern) ih

end Text
end GormForge
