import GormForge.Proofs.Format.Spans

/-!
# Two views of a rejected position

The range of bytes that an error tells, and the excerpt that is shown with it.

**Input.**  A source, and any line and column at which a tool found fault with it.

**Algorithm.**  The range counts bytes over the lines with their line feeds, the excerpt numbers
the lines without what ends them.  For a line that the source does not have there is no range, and
the excerpt shows the nearest line.

**Results.**
* `excerpts_excerpt`: the rows of an excerpt are consecutive lines with their numbers, and one of
  them is marked.
* `FormatError.ofPosition_locates`: both views are of the same line, and stay inside the source.
-/

namespace GormForge
namespace Format

open Text

variable {source : String}
variable {target number width : Nat}
variable {shown row : List Char}

/-! ## Rows -/

/-- A row of an excerpt: the number of a line and the line, with a mark if it is the target. -/
def IsRow (target number : Nat) (shown row : List Char) : Prop :=
  ∃ blanks, (∀ c ∈ blanks, c = ' ') ∧
    row = (if number = target then '>' else ' ') :: ' ' ::
      (blanks ++ (toString number).toList ++ " | ".toList ++ shown)

theorem isRow_excerptRow
    (width target number : Nat)
    (shown : List Char) :
    IsRow target number shown (excerptRow width target number shown).toList := by
  refine ⟨List.replicate (width - (toString number).length) ' ',
    fun c hc => (List.mem_replicate.mp hc).2, ?_⟩
  unfold excerptRow padded
  split <;> simp

theorem IsRow.noFeed
    (h : IsRow target number shown row)
    (hshown : '\n' ∉ shown) :
    '\n' ∉ row := by
  obtain ⟨blanks, hblanks, rfl⟩ := h
  have hdigits : '\n' ∉ (toString number).toList := by
    intro hmem
    have hdigit := Nat.isDigit_of_mem_toDigits (by decide) (by decide)
      (Nat.toList_repr ▸ hmem : '\n' ∈ Nat.toDigits 10 number)
    revert hdigit
    decide
  have hmark : '\n' ≠ if number = target then '>' else ' ' := by
    split <;> decide
  have hblank : '\n' ∉ blanks := fun hmem => absurd (hblanks _ hmem) (by decide)
  simp only [List.mem_cons, List.mem_append, not_or]
  exact ⟨hmark, by decide, ⟨⟨hblank, hdigits⟩, by decide⟩, hshown⟩

/-! ## Excerpts -/

/-- A text shows lines of a source from a first to a last one, each in a row of its own, and
marks the target among them. -/
structure Excerpts (source text : String) (first last target : Nat) : Prop where
  count : (pieces text.toList).length = last + 1 - first
  rows : ∀ number, first ≤ number → number ≤ last →
    ∃ shown row, (lines source.toList)[number - 1]? = some shown ∧
      (pieces text.toList)[number - first]? = some row ∧ IsRow target number shown row

/-- The line of a source that is nearest to one that was told. -/
def nearestLine (source : String) (line : Nat) : Nat :=
  max 1 (min line (lines source.toList).length)

/-- The lines that are shown around a line. -/
def shownLines (source : String) (first last : Nat) : List (List Char) :=
  ((lines source.toList).drop (first - 1)).take (last + 1 - first)

/-- The rows of lines that are shown. -/
def shownRows (source : String) (width first last target : Nat) : List String :=
  (shownLines source first last).mapIdx fun i text => excerptRow width target (first + i) text

theorem getElem?_shownRows
    {first last : Nat}
    (hfirst : 1 ≤ first)
    (hle : first ≤ number)
    (hlast : number ≤ last) :
    (shownRows source width first last target)[number - first]? =
      (lines source.toList)[number - 1]?.map (excerptRow width target number) := by
  unfold shownRows shownLines
  rw [List.getElem?_mapIdx, List.getElem?_take_of_lt (by omega), List.getElem?_drop,
    Nat.add_sub_cancel' hle, show first - 1 + (number - first) = number - 1 by omega]

theorem noFeed_of_mem_shownRows
    {first last : Nat}
    {text : String}
    (h : text ∈ shownRows source width first last target) :
    '\n' ∉ text.toList := by
  obtain ⟨i, hi, rfl⟩ := List.mem_mapIdx.mp h
  have hline : (shownLines source first last)[i] ∈ lines source.toList :=
    List.mem_of_mem_drop (List.mem_of_mem_take (List.getElem_mem hi))
  exact (isRow_excerptRow _ _ _ _).noFeed (isInfix_of_mem_lines hline).2

/-- Rows that are joined fall apart into themselves. -/
theorem excerpts_shownRows
    {first last : Nat}
    (width target : Nat)
    (hfirst : 1 ≤ first)
    (hle : first ≤ last)
    (hlast : last ≤ (lines source.toList).length) :
    Excerpts source (String.intercalate "\n" (shownRows source width first last target))
      first last target := by
  have hlength : (shownRows source width first last target).length = last + 1 - first := by
    simp only [shownRows, shownLines, List.length_mapIdx, List.length_take, List.length_drop]
    omega
  have hpieces : pieces (String.intercalate "\n"
      (shownRows source width first last target)).toList =
        (shownRows source width first last target).map String.toList := by
    rw [String.toList_intercalate]
    change pieces (joinLines _) = _
    rw [pieces_joinLines, flatMap_pieces]
    · intro part hpart
      obtain ⟨text, htext, rfl⟩ := List.mem_map.mp hpart
      exact noFeed_of_mem_shownRows htext
    · rw [← List.length_pos_iff, List.length_map, hlength]
      omega
  constructor
  · rw [hpieces, List.length_map, hlength]
  · intro number hnumber hwithin
    have hlt : number - 1 < (lines source.toList).length := by omega
    refine ⟨_, _, List.getElem?_eq_getElem hlt, ?_, isRow_excerptRow width target number _⟩
    rw [hpieces, List.getElem?_map, getElem?_shownRows hfirst hnumber hwithin,
      List.getElem?_eq_getElem hlt]
    rfl

/-- The rows of an excerpt are the nearest line, which is marked, and up to `radius` lines on each
side of it. -/
theorem excerpts_excerpt
    (line radius : Nat)
    (h : lines source.toList ≠ []) :
    Excerpts source (excerpt source line radius)
      (max 1 (nearestLine source line - radius))
      (min (lines source.toList).length (nearestLine source line + radius))
      (nearestLine source line) := by
  have hpos := List.length_pos_iff.mpr h
  have hempty : (lines source.toList).isEmpty = false := by simpa using h
  rw [Nat.min_comm (lines source.toList).length]
  unfold excerpt
  simp only [hempty, Bool.false_eq_true, if_false]
  refine excerpts_shownRows _ _ (Nat.le_max_left _ _) ?_ (Nat.min_le_right _ _)
  omega

end Format

namespace FormatError

open Text Format

/-- An error has a range exactly if the source has its line, and then it covers the rest of that
line.  Unless the source is empty, the excerpt shows the nearest line between up to five lines on
each side, and marks no other one. -/
theorem ofPosition_locates
    (path : Path)
    (source : String)
    (line column : Nat)
    (message : String) :
    ((ofPosition path source line column message).span.isSome = true ↔
      1 ≤ line ∧ line ≤ (lines source.toList).length) ∧
    (∀ span, (ofPosition path source line column message).span = some span →
      ∃ shown, (lines source.toList)[line - 1]? = some shown ∧
        Covers source line column shown span) ∧
    (lines source.toList ≠ [] →
      Excerpts source (ofPosition path source line column message).excerpt
        (max 1 (nearestLine source line - 5))
        (min (lines source.toList).length (nearestLine source line + 5))
        (nearestLine source line)) := by
  refine ⟨isSome_spanOf?_iff, ?_, ?_⟩
  · intro span hspan
    exact covers_of_spanOf? hspan
  · intro hlines
    exact excerpts_excerpt line contextRadius hlines

end FormatError
end GormForge
