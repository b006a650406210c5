import GormForge.Proofs.Text.Lines
import Mathlib.Data.List.Basic
import Mathlib.Data.List.Infix
import Mathlib.Data.List.TakeWhile
import Mathlib.Tactic.Common

/-!
# Where texts are split

**Results.**
* `splitFirst?_of_notInfix`, `splitLast?_of_notMem`: a text is split where the separator stands
  first, or last.
* `isInfix_of_append`: a piece does not reach into a text without its last character.
* `splitFirst?_append`: what follows a text does not move its first separator.
* `splitFirst?_append_stop`: nor does what stands in front of a text with none, up to a stop.
* `exists_splitLast?_stop`: what stands in front of a stop does not move the last one.
* `trimChars_frame`: between two characters that are no blanks, nothing is trimmed.
-/

namespace GormForge
namespace Text

variable {c d : Char}
variable {sep cs front rest : List Char}

/-- A piece does not reach into a text without its last character. -/
theorem isInfix_of_append
    (piece : List Char)
    {ds : List Char}
    (hc : c ∉ ds)
    (h : piece ++ [c] <:+: cs ++ ds) :
    piece ++ [c] <:+: cs := by
  obtain ⟨front, rest, heq⟩ := h
  rcases List.append_eq_append_iff.mp heq with ⟨more, rfl, -⟩ | ⟨extra, hextra, hrest⟩
  · exact ⟨front, more, rfl⟩
  · rcases List.eq_nil_or_concat extra with rfl | ⟨init, last, rfl⟩
    · exact ⟨front, [], by simpa using hextra⟩
    · have hlast : c = last := by
        have hends := congrArg List.getLast? hextra
        simpa using hends
      exact absurd (by simp [hrest, hlast]) hc

/-- Nor does a piece reach into a text without its first character. -/
theorem isInfix_of_append_left
    (piece : List Char)
    {ds : List Char}
    (hc : c ∉ cs)
    (h : c :: piece <:+: cs ++ ds) :
    c :: piece <:+: ds := by
  obtain ⟨front, rest, heq⟩ := h
  rw [List.append_assoc] at heq
  rcases List.append_eq_append_iff.mp heq with ⟨more, rfl, hmore⟩ | ⟨extra, -, hrest⟩
  · cases more with
    | nil => exact ⟨[], rest, by simpa using hmore⟩
    | cons d later =>
        have hd : c = d := (List.cons.inj hmore).1
        exact absurd (by simp [hd]) hc
  · exact ⟨extra, rest, by simp [hrest]⟩

/-! ## The first separator -/

theorem splitFirst?_of_prefix
    (rest : List Char) :
    splitFirst? sep (sep ++ rest) = some ([], rest) := by
  have hafter : afterPrefix? sep (sep ++ rest) = some rest := afterPrefix?_eq_some_iff.mpr rfl
  cases htext : sep ++ rest with
  | nil =>
      rw [htext] at hafter
      simp [splitFirst?, hafter]
  | cons c cs =>
      rw [htext] at hafter
      simp [splitFirst?, hafter]

/-- A text is split before a separator that stands nowhere earlier. -/
theorem splitFirst?_of_notInfix
    (h : ¬ sep <:+: front ++ sep.dropLast)
    (rest : List Char) :
    splitFirst? sep (front ++ sep ++ rest) = some (front, rest) := by
  induction front with
  | nil => exact splitFirst?_of_prefix rest
  | cons c cs ih =>
      have hlater : ¬ sep <:+: cs ++ sep.dropLast := fun hin =>
        h (hin.trans (List.suffix_cons c _).isInfix)
      have hnone : afterPrefix? sep (c :: (cs ++ sep ++ rest)) = none := by
        rw [Option.eq_none_iff_forall_ne_some]
        intro found hfound
        have hbegins : sep <+: (c :: cs) ++ sep ++ rest :=
          ⟨found, (afterPrefix?_eq_some_iff.mp hfound).symm⟩
        have hshort : (c :: cs) ++ sep.dropLast <+: (c :: cs) ++ sep ++ rest := by
          rw [List.append_assoc, List.prefix_append_right_inj]
          exact (List.dropLast_prefix sep).trans (List.prefix_append sep rest)
        refine h (List.prefix_of_prefix_length_le hbegins hshort ?_).isInfix
        simp only [List.length_append, List.length_cons, List.length_dropLast]
        omega
      simp only [List.cons_append]
      rw [splitFirst?, hnone]
      simp only [ih hlater, Option.map_some]

theorem splitFirst?_of_notMem
    (h : c ∉ front)
    (rest : List Char) :
    splitFirst? [c] (front ++ c :: rest) = some (front, rest) := by
  have hnot : ¬ [c] <:+: front ++ [c].dropLast := by
    simpa [List.singleton_infix_iff] using h
  simpa using splitFirst?_of_notInfix hnot rest

theorem splitFirst?_eq_none
    (h : ¬ sep <:+: cs) :
    splitFirst? sep cs = none := by
  rw [Option.eq_none_iff_forall_ne_some]
  rintro ⟨front, rest⟩ hfound
  exact h ⟨front, rest, (eq_of_splitFirst? hfound).symm⟩

theorem exists_splitFirst?
    (h : sep <:+: cs) :
    ∃ front rest, splitFirst? sep cs = some (front, rest) := by
  induction cs with
  | nil =>
      obtain rfl := List.infix_nil.mp h
      exact ⟨[], [], rfl⟩
  | cons c cs ih =>
      rw [splitFirst?]
      cases hafter : afterPrefix? sep (c :: cs) with
      | some rest => exact ⟨[], rest, rfl⟩
      | none =>
          rcases List.infix_cons_iff.mp h with ⟨rest, heq⟩ | hin
          · rw [afterPrefix?_eq_some_iff.mpr heq.symm] at hafter
            cases hafter
          · obtain ⟨front, rest, hfound⟩ := ih hin
            exact ⟨c :: front, rest, by simp [hfound]⟩

/-- What follows a text does not move its first separator. -/
theorem splitFirst?_append
    (h : splitFirst? sep cs = some (front, rest))
    (tail : List Char) :
    splitFirst? sep (cs ++ tail) = some (front, rest ++ tail) := by
  induction cs generalizing front with
  | nil =>
      have hnil := eq_of_splitFirst? h
      simp only [List.nil_eq, List.append_eq_nil_iff] at hnil
      obtain ⟨⟨rfl, rfl⟩, rfl⟩ := hnil
      exact splitFirst?_of_prefix tail
  | cons c cs ih =>
      rw [splitFirst?] at h
      split at h
      · next found hafter =>
          cases h
          rw [afterPrefix?_eq_some_iff.mp hafter, List.append_assoc]
          exact splitFirst?_of_prefix _
      · next hafter =>
          obtain ⟨⟨front, rest⟩, hfound, heq⟩ := Option.map_eq_some_iff.mp h
          cases heq
          have hlength := congrArg List.length (eq_of_splitFirst? hfound)
          have hnone : afterPrefix? sep (c :: (cs ++ tail)) = none := by
            rw [Option.eq_none_iff_forall_ne_some]
            intro found hbegins
            have hlong : sep <+: (c :: cs) ++ tail :=
              ⟨found, (afterPrefix?_eq_some_iff.mp hbegins).symm⟩
            obtain ⟨later, hlater⟩ : sep <+: c :: cs := by
              refine List.prefix_of_prefix_length_le hlong (List.prefix_append _ tail) ?_
              simp only [List.length_append, List.length_cons] at hlength ⊢
              omega
            rw [afterPrefix?_eq_some_iff.mpr hlater.symm] at hafter
            cases hafter
          rw [List.cons_append, splitFirst?, hnone]
          simp only [ih hfound, Option.map_some]

/-- A piece that stands nowhere in a text does not begin there with a character that only
begins it. -/
theorem not_prefix_append_stop
    (hstop : c ∉ sep.tail)
    (hne : cs ≠ [])
    (hnot : ¬ sep <+: cs)
    (rest : List Char) :
    ¬ sep <+: cs ++ c :: rest := by
  intro hbegins
  obtain ⟨more, hsep⟩ :=
    (List.prefix_or_prefix_of_prefix hbegins (List.prefix_append cs _)).resolve_left hnot
  rw [← hsep, List.prefix_append_right_inj] at hbegins
  rcases List.prefix_cons_iff.mp hbegins with rfl | ⟨later, rfl, -⟩
  · exact hnot (by simp [← hsep])
  · obtain ⟨d, ds, rfl⟩ := List.exists_cons_of_ne_nil hne
    exact hstop (by simp [← hsep])

/-- If a text has no separator, the first one is not earlier than a character that can only be
its beginning. -/
theorem splitFirst?_append_stop
    (hstop : c ∉ sep.tail)
    (hnot : ¬ sep <:+: cs)
    (rest : List Char) :
    splitFirst? sep (cs ++ c :: rest) =
      (splitFirst? sep (c :: rest)).map fun found => (cs ++ found.1, found.2) := by
  induction cs with
  | nil => simp
  | cons d ds ih =>
      have hlater : ¬ sep <:+: ds := fun hin => hnot (hin.trans (List.suffix_cons d ds).isInfix)
      have hbegins : ¬ sep <+: (d :: ds) ++ c :: rest :=
        not_prefix_append_stop hstop (by simp) (fun hin => hnot hin.isInfix) rest
      have hnone : afterPrefix? sep (d :: (ds ++ c :: rest)) = none := by
        rw [Option.eq_none_iff_forall_ne_some]
        intro found hfound
        exact hbegins ⟨found, (afterPrefix?_eq_some_iff.mp hfound).symm⟩
      rw [List.cons_append, splitFirst?, hnone]
      simp only [ih hlater, Option.map_map]
      rfl

/-! ## The last separator -/

theorem splitLast?_eq_none
    (h : ¬ sep <:+: cs) :
    splitLast? sep cs = none := by
  rw [Option.eq_none_iff_forall_ne_some]
  rintro ⟨front, rest⟩ hfound
  exact h ⟨front, rest, (eq_of_splitLast? hfound).symm⟩

theorem splitLast?_of_notMem
    (front : List Char)
    (h : c ∉ rest) :
    splitLast? [c] (front ++ c :: rest) = some (front, rest) := by
  induction front with
  | nil =>
      have hnone : splitLast? [c] rest = none :=
        splitLast?_eq_none (by simpa [List.singleton_infix_iff] using h)
      simp [splitLast?, hnone, afterPrefix?]
  | cons d ds ih =>
      simp [splitLast?, ih]

/-- What stands in front of a text does not move its last separator. -/
theorem splitLast?_append
    (h : splitLast? sep cs = some (front, rest))
    (lead : List Char) :
    splitLast? sep (lead ++ cs) = some (lead ++ front, rest) := by
  induction lead with
  | nil => exact h
  | cons d ds ih => simp only [List.cons_append, splitLast?, ih]

/-- The text behind the last stop, all of it if there is none. -/
def afterLast (stop : Char) (cs : List Char) : List Char :=
  match splitLast? [stop] cs with
  | some (_, rest) => rest
  | none => cs

/-- The last stop of a text is no earlier than a stop that is known. -/
theorem exists_splitLast?_stop
    (c : Char)
    (cs rest : List Char) :
    ∃ more, splitLast? [c] (cs ++ c :: rest) = some (cs ++ more, afterLast c rest) := by
  cases hlast : splitLast? [c] rest with
  | none =>
      have hstop : splitLast? [c] (c :: rest) = some ([], rest) := by
        simp [splitLast?, hlast, afterPrefix?]
      exact ⟨[], by rw [splitLast?_append hstop, afterLast, hlast]⟩
  | some parts =>
      have hstop : splitLast? [c] (c :: rest) = some (c :: parts.1, parts.2) := by
        simp [splitLast?, hlast]
      exact ⟨c :: parts.1, by rw [splitLast?_append hstop, afterLast, hlast]⟩

/-! ## Stops -/

theorem takeWhile_of_notMem
    (h : c ∉ cs) :
    cs.takeWhile (· != c) = cs := by
  rw [List.takeWhile_eq_self_iff]
  rintro d hd
  exact bne_iff_ne.mpr fun heq => h (heq ▸ hd)

theorem takeWhile_append_of_notMem
    (h : c ∉ cs)
    (ds : List Char) :
    (cs ++ ds).takeWhile (· != c) = cs ++ ds.takeWhile (· != c) := by
  refine List.takeWhile_append_of_pos fun d hd => ?_
  exact bne_iff_ne.mpr fun heq => h (heq ▸ hd)

@[simp] theorem takeWhile_append_stop
    (c : Char)
    (cs rest : List Char) :
    (cs ++ c :: rest).takeWhile (· != c) = cs.takeWhile (· != c) := by
  induction cs with
  | nil => simp
  | cons d ds ih => simp [List.takeWhile_cons, ih]

/-- The first stop of a text is where it is, however the text was put together. -/
theorem append_stop_inj
    {ds more : List Char}
    (hcs : c ∉ cs)
    (hds : c ∉ ds)
    (h : cs ++ c :: rest = ds ++ c :: more) :
    cs = ds ∧ rest = more := by
  have hfront := congrArg (List.takeWhile (· != c)) h
  rw [takeWhile_append_stop, takeWhile_append_stop, takeWhile_of_notMem hcs,
    takeWhile_of_notMem hds] at hfront
  obtain rfl := hfront
  exact ⟨rfl, (List.cons.inj (List.append_cancel_left h)).2⟩

theorem byteLength_le_of_prefix
    {ds : List Char}
    (h : cs <+: ds) :
    byteLength cs ≤ byteLength ds := by
  obtain ⟨rest, rfl⟩ := h
  simp

/-- A longer text has no less before its first stop. -/
theorem byteLength_takeWhile_le
    {ds : List Char}
    (c : Char)
    (h : cs <+: ds) :
    byteLength (cs.takeWhile (· != c)) ≤ byteLength (ds.takeWhile (· != c)) := by
  obtain ⟨rest, rfl⟩ := h
  by_cases hmem : c ∈ cs
  · obtain ⟨front, back, rfl⟩ := List.append_of_mem hmem
    simp
  · rw [takeWhile_append_of_notMem hmem, takeWhile_of_notMem hmem]
    simp

/-! ## Blanks -/

/-- A text that stays as it is when it is trimmed begins with no blank. -/
theorem isBlank_of_trimChars
    (h : trimChars (c :: cs) = c :: cs) :
    isBlank c = false := by
  by_contra hblank
  have hshort : trimChars (c :: cs) <:+: cs := by
    rw [trimChars, trimBy, List.dropWhile_cons_of_pos (by simpa using hblank)]
    exact trimBy_isInfix isBlank cs
  have hlength := hshort.length_le
  rw [h, List.length_cons] at hlength
  omega

/-- Between two characters that are no blanks, nothing is trimmed. -/
theorem trimChars_frame
    (hc : isBlank c = false)
    (hd : isBlank d = false)
    (front cs rest : List Char) :
    trimChars (front ++ c :: (cs ++ d :: rest)) =
      front.dropWhile isBlank ++ c :: (cs ++ d :: trimEndBy isBlank rest) := by
  have hfront : (front ++ c :: (cs ++ d :: rest)).dropWhile isBlank =
      front.dropWhile isBlank ++ c :: (cs ++ d :: rest) := by
    rw [List.dropWhile_append]
    split
    · next hnil => simp [List.isEmpty_iff.mp hnil, hc]
    · rfl
  have hback : (front.dropWhile isBlank ++ c :: (cs ++ d :: rest)).reverse.dropWhile isBlank =
      rest.reverse.dropWhile isBlank ++ d :: (front.dropWhile isBlank ++ c :: cs).reverse := by
    have hreverse : (front.dropWhile isBlank ++ c :: (cs ++ d :: rest)).reverse =
        rest.reverse ++ d :: (front.dropWhile isBlank ++ c :: cs).reverse := by
      simp
    rw [hreverse, List.dropWhile_append]
    split
    · next hnil => simp [List.isEmpty_iff.mp hnil, hd]
    · rfl
  unfold trimChars trimBy trimEndBy
  rw [hfront, hback]
  simp

/-- Blanks behind a text that begins with none are removed from its end. -/
theorem exists_trimChars
    (hc : isBlank c = false)
    (hd : isBlank d = false)
    (cs rest : List Char) :
    ∃ kept blanks,
      rest = kept ++ blanks ∧
        (∀ x ∈ blanks, isBlank x = true) ∧
        trimChars (c :: cs ++ d :: rest) = c :: cs ++ d :: kept := by
  refine ⟨trimEndBy isBlank rest, (rest.reverse.takeWhile isBlank).reverse, ?_, ?_, ?_⟩
  · rw [trimEndBy, ← List.reverse_append, List.takeWhile_append_dropWhile, List.reverse_reverse]
  · intro x hx
    exact List.mem_takeWhile_imp (List.mem_reverse.mp hx)
  · exact trimChars_frame hc hd [] cs rest

end Text
end GormForge
