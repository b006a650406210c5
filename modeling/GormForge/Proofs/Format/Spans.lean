import GormForge.Format.Excerpt
import GormForge.Proofs.Text.Percent
import GormForge.Proofs.Text.Places

/-!
# The bytes that a position tells

Which bytes of a source the range of an error covers.

**Input.**  A source with any line endings, and any line and column, also ones that it does not have.

**Algorithm.**  The bytes above the line are counted over the lines with their line feeds, and the
length is that of the line without its ending.  A line that ends in a carriage return and a line
feed is shorter by two, the last one may end without either.

**Results.**
* `exists_linesFrom`: a text from one of its lines on is the line, and what ends it.
* `lines_drop_terminatedLines`: the rest of a text after some of its lines has the other ones.
* `isSome_spanOf?_iff`: a position has a range exactly if the source has its line.
* `covers_of_spanOf?`: the range covers the rest of that line.
-/

namespace GormForge

namespace Text

variable {c : Char}
variable {cs shown : List Char}
variable {parts : List (List Char)}
variable {place : Nat}

/-! ## Lines and what ends them -/

/-- What may follow a line: nothing, a line feed, or one after a carriage return. -/
def FollowsLine {α : Type} (carriage feed : α) (rest : List α) : Prop :=
  rest = [] ∨ [feed] <+: rest ∨ [carriage, feed] <+: rest

theorem exists_joinLines_drop
    (h : (linesOfPieces parts)[place]? = some shown) :
    place < parts.length ∧
      ∃ rest, joinLines (parts.drop place) = shown ++ rest ∧ FollowsLine '\r' '\n' rest := by
  fun_induction linesOfPieces parts generalizing place with
  | case1 => simp at h
  | case2 => simp at h
  | case3 last hne =>
      cases place with
      | zero =>
          obtain rfl : last = shown := by simpa using h
          exact ⟨by simp, [], by simp [joinLines], Or.inl rfl⟩
      | succ place => simp at h
  | case4 part others hothers ih =>
      cases place with
      | zero =>
          obtain rfl : dropCarriageReturn part = shown := by simpa using h
          refine ⟨by simp, ?_⟩
          rw [List.drop_zero, joinLines_cons part hothers]
          rcases eq_or_of_dropCarriageReturn part with heq | heq
          · exact ⟨'\n' :: joinLines others, by rw [← heq], Or.inr (Or.inl (by simp))⟩
          · refine ⟨'\r' :: '\n' :: joinLines others, ?_, Or.inr (Or.inr (by simp))⟩
            conv => lhs; rw [heq]
            simp
      | succ place =>
          obtain ⟨hlt, rest, hrest, hfollows⟩ := ih h
          exact ⟨by simpa using hlt, rest, hrest, hfollows⟩

/-- A text from one of its lines on is the line, and what ends it. -/
theorem exists_linesFrom
    (h : (lines cs)[place]? = some shown) :
    ∃ rest, cs = firstLines place cs ++ (shown ++ rest) ∧ FollowsLine '\r' '\n' rest := by
  obtain ⟨hlt, rest, hrest, hfollows⟩ := exists_joinLines_drop h
  refine ⟨rest, ?_, hfollows⟩
  rw [← hrest]
  exact (firstLines_append_linesFrom hlt).symm

theorem count_feed_flatMap
    (h : ∀ part ∈ parts, '\n' ∉ part) :
    (parts.flatMap (· ++ ['\n'])).count '\n' = parts.length := by
  induction parts with
  | nil => rfl
  | cons part parts ih =>
      obtain ⟨hpart, hparts⟩ := List.forall_mem_cons.mp h
      rw [List.flatMap_cons, List.count_append, List.count_append, List.count_eq_zero.mpr hpart,
        ih hparts, List.length_cons]
      simp [Nat.add_comm]

/-- Above the line at a place there are as many line feeds. -/
theorem count_feed_firstLines
    (h : (lines cs)[place]? = some shown) :
    (firstLines place cs).count '\n' = place := by
  obtain ⟨hlt, -⟩ := exists_joinLines_drop h
  unfold firstLines
  rw [count_feed_flatMap fun part hpart => noFeed_of_mem_pieces (List.mem_of_mem_take hpart)]
  exact List.length_take_of_le (Nat.le_of_lt hlt)

/-! ## Bytes of lines -/

theorem count_feed_utf8
    (cs : List Char) :
    (utf8 cs).count 10 = cs.count '\n' := by
  induction cs with
  | nil => rfl
  | cons c cs ih =>
      have hchar : (String.utf8EncodeChar c).count 10 = [c].count '\n' := by
        by_cases hc : c = '\n'
        · subst hc
          decide
        · have hnot : (10 : UInt8) ∉ utf8 [c] := fun hmem =>
            hc (List.mem_singleton.mp (mem_of_mem_utf8 (show '\n'.toNat < 0x80 by decide) hmem)).symm
          have hsingle : utf8 [c] = String.utf8EncodeChar c := by simp [utf8]
          rw [hsingle] at hnot
          rw [List.count_eq_zero.mpr hnot, List.count_eq_zero.mpr (by simpa using Ne.symm hc)]
      rw [utf8_cons, List.count_append, hchar, ih, ← List.count_append, List.singleton_append]

theorem followsLine_utf8
    (h : FollowsLine '\r' '\n' cs) :
    FollowsLine 13 10 (utf8 cs) := by
  rcases h with rfl | ⟨rest, rfl⟩ | ⟨rest, rfl⟩
  · exact Or.inl rfl
  · exact Or.inr (Or.inl (by simp [utf8, utf8EncodeChar_ascii]))
  · exact Or.inr (Or.inr (by simp [utf8, utf8EncodeChar_ascii]))

end Text

namespace Format

open Text

variable {source : String}
variable {line column : Nat}
variable {span : Span}
variable {shown : List Char}

/-! ## Ranges -/

theorem drop_terminatedLines
    (parts : List (List Char))
    (count : Nat) :
    (terminatedLines parts).drop count = terminatedLines (parts.drop count) := by
  fun_induction terminatedLines parts generalizing count with
  | case1 => simp [terminatedLines]
  | case2 => cases count <;> simp [terminatedLines]
  | case3 last hne => cases count <;> simp [terminatedLines, hne]
  | case4 part others hothers ih =>
      cases count with
      | zero => simp [terminatedLines]
      | succ count => exact ih count

/-- The lines with what ends them make up the text. -/
theorem flatten_terminatedLines
    (parts : List (List Char)) :
    (terminatedLines parts).flatten = joinLines parts := by
  fun_induction terminatedLines parts with
  | case1 => rfl
  | case2 => rfl
  | case3 last hne => simp [joinLines]
  | case4 part others hothers ih =>
      rw [List.flatten_cons, ih, joinLines_cons part hothers, List.append_assoc,
        List.singleton_append]

/-- The first lines with what ends them end in line feeds, unless they are all. -/
theorem flatten_take_terminatedLines
    {parts : List (List Char)}
    {count : Nat}
    (h : count < parts.length) :
    ((terminatedLines parts).take count).flatten = (parts.take count).flatMap (· ++ ['\n']) := by
  fun_induction terminatedLines parts generalizing count with
  | case1 => cases h
  | case2 =>
      obtain rfl : count = 0 := by simpa using h
      rfl
  | case3 =>
      obtain rfl : count = 0 := by simpa using h
      rfl
  | case4 part others hothers ih =>
      cases count with
      | zero => rfl
      | succ count =>
          rw [List.take_succ_cons, List.take_succ_cons, List.flatten_cons, List.flatMap_cons,
            ih (by simpa using h)]

/-- The rest of a text after some lines with what ends them has the lines after those. -/
theorem lines_drop_terminatedLines
    (cs : List Char)
    (count : Nat) :
    lines ((terminatedLines (pieces cs)).drop count).flatten = (lines cs).drop count := by
  rw [drop_terminatedLines, flatten_terminatedLines, lines_joinLines, lines, drop_linesOfPieces]
  exact fun part hpart => noFeed_of_mem_pieces (List.mem_of_mem_drop hpart)

theorem spanOf?_eq_some_iff :
    spanOf? source line column = some span ↔
      ∃ before shown, line = before + 1 ∧ (lines source.toList)[before]? = some shown ∧
        span = ⟨byteLength (firstLines before source.toList) + min (column - 1) (byteLength shown),
          byteLength shown - min (column - 1) (byteLength shown)⟩ := by
  cases line with
  | zero => simp [spanOf?]
  | succ before =>
      simp only [spanOf?, lines_drop_terminatedLines]
      have hat := List.head?_drop (l := lines source.toList) (i := before)
      cases hrest : (lines source.toList).drop before with
      | nil =>
          rw [hrest, List.head?_nil] at hat
          simp [← hat]
      | cons shown below =>
          rw [hrest, List.head?_cons] at hat
          rw [flatten_take_terminatedLines (exists_joinLines_drop hat.symm).1]
          simp [firstLines, ← hat, eq_comm]

/-- A position has a range exactly if the source has its line. -/
theorem isSome_spanOf?_iff :
    (spanOf? source line column).isSome = true ↔
      1 ≤ line ∧ line ≤ (lines source.toList).length := by
  simp only [Option.isSome_iff_exists, spanOf?_eq_some_iff]
  constructor
  · rintro ⟨_, before, shown, rfl, hshown, -⟩
    have hlt := (List.getElem?_eq_some_iff.mp hshown).1
    omega
  · rintro ⟨hone, hle⟩
    obtain ⟨before, rfl⟩ := Nat.exists_eq_add_of_le' hone
    exact ⟨_, before, _, rfl, List.getElem?_eq_getElem hle, rfl⟩

/-- A range covers the rest of a line, from a column on. -/
structure Covers (source : String) (line column : Nat) (shown : List Char) (span : Span) :
    Prop where
  inside : span.offset + span.length ≤ (utf8 source.toList).length
  /-- It lies in the line with that number. -/
  below : ((utf8 source.toList).take span.offset).count 10 = line - 1
  rest : ((utf8 source.toList).drop span.offset).take span.length =
    (utf8 shown).drop (min (column - 1) (utf8 shown).length)
  ended : FollowsLine 13 10 ((utf8 source.toList).drop (span.offset + span.length))

/-- The range of a position covers the rest of its line. -/
theorem covers_of_spanOf?
    (h : spanOf? source line column = some span) :
    ∃ shown, (lines source.toList)[line - 1]? = some shown ∧
      Covers source line column shown span := by
  obtain ⟨before, shown, rfl, hshown, rfl⟩ := spanOf?_eq_some_iff.mp h
  obtain ⟨rest, hsource, hfollows⟩ := exists_linesFrom hshown
  refine ⟨shown, hshown, ?_⟩
  have hbytes : utf8 source.toList =
      utf8 (firstLines before source.toList) ++ (utf8 shown ++ utf8 rest) := by
    rw [← utf8_append, ← utf8_append, ← hsource]
  have habove : (utf8 (firstLines before source.toList)).count 10 = before := by
    rw [count_feed_utf8, count_feed_firstLines hshown]
  have hline : 10 ∉ utf8 shown := fun hmem =>
    (isInfix_of_mem_lines (List.mem_of_getElem? hshown)).2
      (mem_of_mem_utf8 (show '\n'.toNat < 0x80 by decide) hmem)
  simp only [← length_utf8]
  generalize utf8 (firstLines before source.toList) = above at hbytes habove ⊢
  have hend : above.length + min (column - 1) (utf8 shown).length +
      ((utf8 shown).length - min (column - 1) (utf8 shown).length) =
        (above ++ utf8 shown).length := by
    rw [List.length_append]
    omega
  constructor
  · rw [hend, hbytes, ← List.append_assoc]
    exact (List.prefix_append _ _).length_le
  · rw [hbytes, List.take_length_add_append, List.take_append_of_le_length (Nat.min_le_right _ _),
      List.count_append, habove, List.count_eq_zero.mpr fun hmem => hline (List.mem_of_mem_take hmem)]
    rfl
  · rw [hbytes, List.drop_length_add_append, List.drop_append_of_le_length (Nat.min_le_right _ _)]
    exact List.take_left' List.length_drop
  · rw [hend, hbytes, ← List.append_assoc, List.drop_left]
    exact followsLine_utf8 hfollows

-- The line above is three bytes long with what ends it, and `é` is two.
example : spanOf? "a\r\nbé=\r\n" 2 2 = some ⟨4, 3⟩ := by
  cbv

end Format
end GormForge
