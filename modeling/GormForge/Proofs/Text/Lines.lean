import GormForge.Text.Blank
import GormForge.Text.Lines
import GormForge.Proofs.Text.Parts

/-!
# Parts between line feeds

**Results.**
* `pieces_joinLines`: joined parts fall apart into their own parts.
* `exists_mem_pieces`: what occurs in a text and holds no line feed occurs in one of its parts.
* `lines_joinLines`: a text that was joined from parts has the lines of these parts.
* `isInfix_of_mem_lines`: the lines of a text occur in it.
* `exists_line_of_mem_parts`: the parts are the lines, but for carriage returns and an empty one
  at the end.
-/

namespace GormForge
namespace Text

variable {cs needle part : List Char}
variable {parts : List (List Char)}

theorem contains_iff_isInfix :
    contains needle cs = true ↔ needle <:+: cs := by
  rw [contains_iff]
  constructor
  · rintro ⟨front, rest, rfl⟩
    exact ⟨front, rest, rfl⟩
  · rintro ⟨front, rest, rfl⟩
    exact ⟨front, rest, rfl⟩

/-! ## Joining -/

theorem joinLines_pieces
    (cs : List Char) :
    joinLines (pieces cs) = cs :=
  List.intercalate_splitOn '\n'

theorem joinLines_cons
    (part : List Char)
    (h : parts ≠ []) :
    joinLines (part :: parts) = part ++ '\n' :: joinLines parts := by
  unfold joinLines
  rw [List.intercalate_cons_of_ne_nil h]
  simp

/-- Joined parts fall apart into their own parts. -/
theorem pieces_joinLines
    (h : parts ≠ []) :
    pieces (joinLines parts) = parts.flatMap pieces := by
  induction parts with
  | nil => exact absurd rfl h
  | cons part rest ih =>
      cases rest with
      | nil => simp [joinLines]
      | cons next rest =>
          have hne : next :: rest ≠ [] := by simp
          rw [joinLines_cons part hne, List.flatMap_cons, ← ih hne]
          exact List.splitOn_append_cons_self _ _

theorem joinLines_append
    (front : List (List Char))
    (h : parts ≠ []) :
    joinLines (front ++ parts) = front.flatMap (· ++ ['\n']) ++ joinLines parts := by
  induction front with
  | nil => simp
  | cons part front ih =>
      rw [List.cons_append, joinLines_cons part (by simp [h]), ih, List.flatMap_cons]
      simp

theorem isInfix_joinLines
    (h : part ∈ parts) :
    part <:+: joinLines parts := by
  induction parts with
  | nil => cases h
  | cons first rest ih =>
      cases rest with
      | nil =>
          obtain rfl := List.mem_singleton.mp h
          simp [joinLines]
      | cons next rest =>
          rw [joinLines_cons first (by simp)]
          rcases List.mem_cons.mp h with rfl | h
          · exact (List.prefix_append _ _).isInfix
          · have htail := ih h
            exact (htail.trans (List.suffix_cons _ _).isInfix).trans
              (List.suffix_append _ _).isInfix

/-- A part that is put among others makes their text longer. -/
theorem length_joinLines_insert
    (front : List (List Char))
    (line next : List Char)
    (back : List (List Char)) :
    (joinLines (front ++ line :: next :: back)).length =
      (joinLines (front ++ next :: back)).length + line.length + 1 := by
  rw [joinLines_append front (by simp), joinLines_append front (by simp),
    joinLines_cons line (by simp)]
  simp only [List.length_append, List.length_cons]
  omega

theorem pieces_of_noFeed
    (h : '\n' ∉ cs) :
    pieces cs = [cs] :=
  List.splitOn_eq_singleton h

theorem noFeed_of_mem_pieces
    (h : part ∈ pieces cs) :
    '\n' ∉ part :=
  notMem_of_mem_splitOn h

theorem flatMap_pieces
    (h : ∀ part ∈ parts, '\n' ∉ part) :
    parts.flatMap pieces = parts := by
  induction parts with
  | nil => rfl
  | cons part rest ih =>
      rw [List.flatMap_cons, pieces_of_noFeed (h part (List.mem_cons_self ..)),
        ih fun other hother => h other (List.mem_cons_of_mem _ hother)]
      rfl

/-- A text that is put among parts brings in its own parts. -/
theorem pieces_joinLines_insert
    {front back : List (List Char)}
    (h : ∀ part ∈ front ++ back, '\n' ∉ part)
    (line : List Char) :
    pieces (joinLines (front ++ line :: back)) = front ++ (pieces line ++ back) := by
  rw [pieces_joinLines (by simp), List.flatMap_append, List.flatMap_cons,
    flatMap_pieces fun part hpart => h part (List.mem_append_left _ hpart),
    flatMap_pieces fun part hpart => h part (List.mem_append_right _ hpart)]

/-! ## Occurrences -/

/-- A text without line feeds that begins another one begins its first part. -/
theorem pieces_append
    (h : '\n' ∉ needle)
    (cs : List Char) :
    pieces (needle ++ cs) = (pieces cs).modifyHead (needle ++ ·) := by
  induction needle with
  | nil => cases hcs : pieces cs <;> simp [hcs]
  | cons c needle ih =>
      rw [List.mem_cons, not_or] at h
      have hc : (c == '\n') = false := by simpa using Ne.symm h.1
      unfold pieces at ih ⊢
      rw [List.cons_append, List.splitOn_cons_eq_if_modifyHead, hc, ih h.2]
      simp only [Bool.false_eq_true, if_false]
      rw [List.modifyHead_modifyHead]
      rfl

/-- What occurs in a text and holds no line feed occurs in one of its parts. -/
theorem exists_mem_pieces
    (hfeed : '\n' ∉ needle)
    (h : needle <:+: cs) :
    ∃ part ∈ pieces cs, needle <:+: part := by
  obtain ⟨front, rest, rfl⟩ := h
  induction front with
  | nil =>
      obtain ⟨first, others, hrest⟩ := List.exists_cons_of_ne_nil (List.splitOn_ne_nil '\n' rest)
      refine ⟨needle ++ first, ?_, (List.prefix_append _ _).isInfix⟩
      rw [List.nil_append, pieces_append hfeed, pieces, hrest]
      simp
  | cons c front ih =>
      obtain ⟨part, hpart, hin⟩ := ih
      simp only [List.cons_append]
      unfold pieces at hpart ⊢
      rw [List.splitOn_cons_eq_if_modifyHead]
      split
      · exact ⟨part, List.mem_cons_of_mem _ hpart, hin⟩
      · cases hparts : (front ++ needle ++ rest).splitOn '\n' with
        | nil => exact absurd hparts (List.splitOn_ne_nil _ _)
        | cons first others =>
            rw [hparts] at hpart
            rw [List.modifyHead_cons]
            rcases List.mem_cons.mp hpart with rfl | hpart
            · exact ⟨c :: part, List.mem_cons_self .., hin.trans (List.suffix_cons _ _).isInfix⟩
            · exact ⟨part, List.mem_cons_of_mem _ hpart, hin⟩

theorem isInfix_of_mem_pieces
    (h : part ∈ pieces cs) :
    part <:+: cs := by
  have hin := isInfix_joinLines h
  rwa [joinLines_pieces] at hin

/-! ## Lines -/

theorem eq_or_of_dropCarriageReturn
    (part : List Char) :
    part = dropCarriageReturn part ∨ part = dropCarriageReturn part ++ ['\r'] := by
  unfold dropCarriageReturn
  cases hdrop : beforeSuffix? ['\r'] part with
  | none => exact Or.inl rfl
  | some front => exact Or.inr (beforeSuffix?_eq_some_iff.mp hdrop)

theorem drop_linesOfPieces
    (parts : List (List Char))
    (count : Nat) :
    (linesOfPieces parts).drop count = linesOfPieces (parts.drop count) := by
  fun_induction linesOfPieces parts generalizing count with
  | case1 => simp [linesOfPieces]
  | case2 => cases count <;> simp [linesOfPieces]
  | case3 last hne => cases count <;> simp [linesOfPieces, hne]
  | case4 part others hothers ih =>
      cases count with
      | zero => simp [linesOfPieces]
      | succ count => exact ih count

theorem lines_joinLines
    (h : ∀ part ∈ parts, '\n' ∉ part) :
    lines (joinLines parts) = linesOfPieces parts := by
  by_cases hempty : parts = []
  · subst hempty
    rfl
  · rw [lines, pieces_joinLines hempty, flatMap_pieces h]

theorem mem_pieces_of_mem_linesOfPieces
    {line : List Char}
    (h : line ∈ linesOfPieces parts) :
    ∃ part ∈ parts, line <+: part := by
  fun_induction linesOfPieces parts with
  | case1 => cases h
  | case2 => cases h
  | case3 last hne =>
      obtain rfl := List.mem_singleton.mp h
      exact ⟨line, List.mem_singleton.mpr rfl, List.prefix_rfl⟩
  | case4 part rest hrest ih =>
      rcases List.mem_cons.mp h with rfl | h
      · refine ⟨part, List.mem_cons_self .., ?_⟩
        rcases eq_or_of_dropCarriageReturn part with heq | heq
        · exact ⟨[], (List.append_nil _).trans heq.symm⟩
        · exact ⟨['\r'], heq.symm⟩
      · obtain ⟨other, hother, hline⟩ := ih h
        exact ⟨other, List.mem_cons_of_mem _ hother, hline⟩

/-- The lines of a text occur in it and hold no line feed. -/
theorem isInfix_of_mem_lines
    {line : List Char}
    (h : line ∈ lines cs) :
    line <:+: cs ∧ '\n' ∉ line := by
  obtain ⟨part, hpart, hline⟩ := mem_pieces_of_mem_linesOfPieces h
  constructor
  · exact hline.isInfix.trans (isInfix_of_mem_pieces hpart)
  · exact fun hfeed => noFeed_of_mem_pieces hpart (hline.subset hfeed)

/-! ## Blanks -/

theorem trimBy_isInfix
    (p : Char → Bool)
    (cs : List Char) :
    trimBy p cs <:+: cs := by
  have htrim : trimBy p cs <+: cs.dropWhile p := by
    unfold trimBy trimEndBy
    rw [← List.reverse_suffix, List.reverse_reverse]
    exact List.dropWhile_suffix p
  exact htrim.isInfix.trans (List.dropWhile_suffix p).isInfix

/-- Trimming drops blanks at the front. -/
theorem trimChars_append_of_blank
    {front : List Char}
    (h : ∀ c ∈ front, isBlank c = true)
    (cs : List Char) :
    trimChars (front ++ cs) = trimChars cs := by
  unfold trimChars trimBy
  rw [List.dropWhile_append_of_pos h]

theorem noBlank_of_all
    {cs : List Char}
    (h : cs.all (!isBlank ·) = true) :
    ∀ c ∈ cs, isBlank c = false := by
  simpa using h

theorem noFeed_of_noBlank
    (h : ∀ c ∈ cs, isBlank c = false) :
    '\n' ∉ cs := by
  intro hmem
  have hblank : isBlank '\n' = true := by decide
  rw [h _ hmem] at hblank
  cases hblank

/-- Trimming keeps a text without blanks. -/
theorem trimChars_of_noBlank
    (h : ∀ c ∈ cs, isBlank c = false) :
    trimChars cs = cs := by
  have hdrop : ∀ {cs : List Char}, (∀ c ∈ cs, isBlank c = false) → cs.dropWhile isBlank = cs := by
    intro cs hcs
    cases cs with
    | nil => rfl
    | cons c cs => exact List.dropWhile_cons_of_neg (by simp [hcs c (List.mem_cons_self ..)])
  unfold trimChars trimBy trimEndBy
  rw [hdrop h, hdrop fun c hc => h c (List.mem_reverse.mp hc), List.reverse_reverse]

/-- A carriage return at the end is a blank. -/
theorem trimChars_append_return
    (cs : List Char) :
    trimChars (cs ++ ['\r']) = trimChars cs := by
  have hblank : isBlank '\r' = true := by decide
  unfold trimChars trimBy trimEndBy
  rw [List.dropWhile_append]
  split
  · next hall =>
      have hnil : cs.dropWhile isBlank = [] := by simpa using hall
      simp [hnil, hblank]
  · simp [hblank]

/-- Trimming keeps a character at the end that is not blank. -/
theorem exists_trimChars_append
    {c : Char}
    (hc : isBlank c = false)
    (cs : List Char) :
    ∃ front, trimChars (cs ++ [c]) = front ++ [c] := by
  obtain ⟨front, hfront⟩ : ∃ front, (cs ++ [c]).dropWhile isBlank = front ++ [c] := by
    rw [List.dropWhile_append]
    split
    · exact ⟨[], by simp [hc]⟩
    · exact ⟨_, rfl⟩
  refine ⟨front, ?_⟩
  unfold trimChars trimBy trimEndBy
  rw [hfront, List.reverse_append, List.reverse_singleton, List.singleton_append,
    List.dropWhile_cons_of_neg (by simp [hc])]
  simp

theorem joinLines_append_last
    (init : List (List Char))
    (last cs : List Char) :
    joinLines (init ++ [last]) ++ cs = joinLines (init ++ [last ++ cs]) := by
  rw [joinLines_append init (by simp), joinLines_append init (by simp)]
  simp [joinLines]

/-- What follows a text and holds no line feed belongs to its last part. -/
theorem exists_pieces_append
    {ds : List Char}
    (h : '\n' ∉ ds)
    (cs : List Char) :
    ∃ init last, pieces cs = init ++ [last] ∧ pieces (cs ++ ds) = init ++ [last ++ ds] := by
  obtain ⟨init, last, hparts⟩ : ∃ init last, pieces cs = init ++ [last] :=
    ⟨_, _, (List.dropLast_append_getLast (List.splitOn_ne_nil '\n' cs)).symm⟩
  have hfeed : ∀ part ∈ init ++ [last], '\n' ∉ part := by
    rw [← hparts]
    exact fun part hpart => noFeed_of_mem_pieces hpart
  have hfeed' : ∀ part ∈ init ++ [last ++ ds], '\n' ∉ part := by
    intro part hpart
    rcases List.mem_append.mp hpart with hpart | hpart
    · exact hfeed part (List.mem_append_left _ hpart)
    · rw [List.mem_singleton.mp hpart]
      simpa [h] using hfeed last (by simp)
  refine ⟨init, last, hparts, ?_⟩
  rw [← joinLines_pieces cs, hparts, joinLines_append_last, pieces_joinLines (by simp),
    flatMap_pieces hfeed']

/-- A carriage return at the end of a text changes no part of it but for a blank. -/
theorem trimChars_of_mem_pieces_append_return
    (h : part ∈ pieces (cs ++ ['\r'])) :
    ∃ line ∈ pieces cs, trimChars part = trimChars line := by
  obtain ⟨init, last, hparts, hreturn⟩ := exists_pieces_append (show '\n' ∉ ['\r'] by decide) cs
  rw [hreturn] at h
  rw [hparts]
  rcases List.mem_append.mp h with hinit | hlast
  · exact ⟨part, List.mem_append_left _ hinit, rfl⟩
  · rw [List.mem_singleton.mp hlast]
    exact ⟨last, by simp, trimChars_append_return last⟩

/-- The lines of a text are its parts, but for carriage returns and the empty part after a
line feed at the end. -/
theorem exists_line_of_mem_parts
    (h : part ∈ parts) :
    (∃ line ∈ linesOfPieces parts, trimChars part = trimChars line) ∨
      (part = [] ∧ parts.getLast? = some []) := by
  fun_induction linesOfPieces parts with
  | case1 => cases h
  | case2 => exact Or.inr ⟨List.mem_singleton.mp h, rfl⟩
  | case3 last hne =>
      obtain rfl := List.mem_singleton.mp h
      exact Or.inl ⟨part, List.mem_singleton_self _, rfl⟩
  | case4 first rest hrest ih =>
      rcases List.mem_cons.mp h with rfl | h
      · refine Or.inl ⟨dropCarriageReturn part, List.mem_cons_self .., ?_⟩
        rcases eq_or_of_dropCarriageReturn part with heq | heq
        · rw [← heq]
        · conv => lhs; rw [heq]
          exact trimChars_append_return _
      · rcases ih h with ⟨line, hline, htrim⟩ | ⟨hnil, hlast⟩
        · exact Or.inl ⟨line, List.mem_cons_of_mem _ hline, htrim⟩
        · refine Or.inr ⟨hnil, ?_⟩
          rw [List.getLast?_cons, hlast]
          rfl

theorem joinLines_append_nil
    (h : parts ≠ []) :
    joinLines (parts ++ [[]]) = joinLines parts ++ ['\n'] := by
  obtain ⟨init, last, rfl⟩ := (List.eq_nil_or_concat' parts).resolve_left h
  rw [joinLines_append _ (by simp), joinLines_append init (by simp)]
  simp [joinLines]

/-- A text whose last part is empty is itself empty or ends in a line feed. -/
theorem getLast?_of_pieces
    (h : (pieces cs).getLast? = some []) :
    cs = [] ∨ cs.getLast? = some '\n' := by
  obtain ⟨init, hinit⟩ := List.getLast?_eq_some_iff.mp h
  rw [← joinLines_pieces cs, hinit]
  by_cases hnil : init = []
  · left
    simp [hnil, joinLines]
  · right
    rw [joinLines_append_nil hnil]
    simp

end Text
end GormForge
