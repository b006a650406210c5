import GormForge.Proofs.Text.Lines

/-!
# Lines by their places

Where a line stands in a text, and what the text is made of above and below it.

**Input.**  A text with its parts between line feeds.  Their places are counted from zero, and a
line is told by what it is without the blanks around it.

**Results.**
* `IsLineAt`, `IsOnlyLineAt`, `HasLine`: a line stands at a place, at no other one, or anywhere.
* `firstLines_append_linesFrom`: a text is its first lines and what follows them.
* `withoutLines_insert`: a text that was put in above a line leaves nothing behind when its lines
  are taken out.
* `IsOnlyLineAt.insert`: a line that is put in above another one moves it down by one place.
-/

namespace GormForge
namespace Text

variable {line part cs ds : List Char}
variable {parts : List (List Char)}
variable {place : Nat}

/-! ## Places of lines -/

/-- The line at a place is another one, up to the blanks around it. -/
def IsLineAt (line : List Char) (place : Nat) (cs : List Char) : Prop :=
  (pieces cs)[place]?.map trimChars = some line

/-- A line stands at one place and at no other. -/
def IsOnlyLineAt (line : List Char) (place : Nat) (cs : List Char) : Prop :=
  ∀ other, IsLineAt line other cs ↔ other = place

/-- A line stands somewhere in a text. -/
def HasLine (line cs : List Char) : Prop :=
  ∃ part ∈ pieces cs, trimChars part = line

instance (line cs : List Char) : Decidable (HasLine line cs) :=
  inferInstanceAs (Decidable (∃ part ∈ pieces cs, trimChars part = line))

theorem IsOnlyLineAt.exists_part
    (h : IsOnlyLineAt line place cs) :
    ∃ part, (pieces cs)[place]? = some part ∧ trimChars part = line :=
  Option.map_eq_some_iff.mp ((h place).mpr rfl)

/-! ## Above and below a line -/

/-- The first lines of a text, each with its line feed. -/
def firstLines (count : Nat) (cs : List Char) : List Char :=
  ((pieces cs).take count).flatMap (· ++ ['\n'])

/-- A text from the line at a place on. -/
def linesFrom (place : Nat) (cs : List Char) : List Char :=
  joinLines ((pieces cs).drop place)

/-- A text without some of its lines, the first of which stands at a place. -/
def withoutLines (place count : Nat) (cs : List Char) : List Char :=
  firstLines place cs ++ linesFrom (place + count) cs

/-- A text with another one put in as lines of their own, above the line at a place. -/
def insertAbove (place : Nat) (text cs : List Char) : List Char :=
  joinLines ((pieces cs).take place ++ text :: (pieces cs).drop place)

/-- A text is its first lines and what follows them. -/
theorem firstLines_append_linesFrom
    (h : place < (pieces cs).length) :
    firstLines place cs ++ linesFrom place cs = cs := by
  have hbelow : (pieces cs).drop place ≠ [] := by simpa using h
  unfold firstLines linesFrom
  rw [← joinLines_append _ hbelow, List.take_append_drop, joinLines_pieces]

/-- A text that is put in goes between the lines above and below, with a line feed. -/
theorem insertAbove_eq
    (h : place < (pieces cs).length)
    (text : List Char) :
    insertAbove place text cs =
      firstLines place cs ++ (text ++ '\n' :: linesFrom place cs) := by
  have hbelow : (pieces cs).drop place ≠ [] := by simpa using h
  unfold insertAbove firstLines linesFrom
  rw [joinLines_append _ (by simp), joinLines_cons text hbelow]

theorem pieces_insertAbove
    (place : Nat)
    (text cs : List Char) :
    pieces (insertAbove place text cs) =
      (pieces cs).take place ++ (pieces text ++ (pieces cs).drop place) := by
  refine pieces_joinLines_insert (fun part hpart => ?_) text
  rw [List.take_append_drop] at hpart
  exact noFeed_of_mem_pieces hpart

/-- A text that was put in leaves nothing behind when its lines are taken out. -/
theorem withoutLines_insert
    (h : place < (pieces cs).length)
    (text : List Char) :
    withoutLines place (pieces text).length (insertAbove place text cs) = cs := by
  have hlength : ((pieces cs).take place).length = place := List.length_take_of_le (Nat.le_of_lt h)
  have hfirst : firstLines place (insertAbove place text cs) = firstLines place cs := by
    rw [firstLines, pieces_insertAbove, List.take_left' hlength, firstLines]
  have hfrom : linesFrom (place + (pieces text).length) (insertAbove place text cs) =
      linesFrom place cs := by
    rw [linesFrom, pieces_insertAbove, ← List.append_assoc,
      List.drop_left' (by rw [List.length_append, hlength]), linesFrom]
  rw [withoutLines, hfirst, hfrom, firstLines_append_linesFrom h]

/-- The line above which a text was put in follows its lines. -/
theorem getElem?_insertAbove
    (h : (pieces cs)[place]? = some part)
    (text : List Char) :
    (pieces (insertAbove place text cs))[place + (pieces text).length]? = some part := by
  obtain ⟨hlt, hpart⟩ := List.getElem?_eq_some_iff.mp h
  have hlength : ((pieces cs).take place ++ pieces text).length =
      place + (pieces text).length := by
    rw [List.length_append, List.length_take_of_le (Nat.le_of_lt hlt)]
  rw [pieces_insertAbove, ← List.append_assoc, ← hlength,
    List.getElem?_append_right (Nat.le_refl _), Nat.sub_self, List.getElem?_drop, Nat.add_zero, h]

/-! ## One more line -/

theorem pieces_insertAbove_of_noFeed
    (h : '\n' ∉ part)
    (place : Nat)
    (cs : List Char) :
    pieces (insertAbove place part cs) =
      (pieces cs).take place ++ part :: (pieces cs).drop place := by
  rw [pieces_insertAbove, pieces_of_noFeed h, List.singleton_append]

/-- A line that is put in above another one moves it down by one place. -/
theorem IsOnlyLineAt.insert
    (h : IsOnlyLineAt line place cs)
    (hfeed : '\n' ∉ part)
    (hpart : trimChars part ≠ line) :
    IsOnlyLineAt line (place + 1) (insertAbove place part cs) := by
  obtain ⟨found, hfound, -⟩ := h.exists_part
  have hlength : ((pieces cs).take place).length = place :=
    List.length_take_of_le (Nat.le_of_lt (List.getElem?_eq_some_iff.mp hfound).1)
  intro other
  unfold IsLineAt
  rw [pieces_insertAbove_of_noFeed hfeed]
  rcases Nat.lt_trichotomy other place with habove | rfl | hbelow
  · -- the lines above stay where they are
    rw [List.getElem?_append_left (by omega), List.getElem?_take_of_lt habove]
    exact (h other).trans (by omega)
  · rw [List.getElem?_append_right (by omega), hlength, Nat.sub_self]
    simp [hpart]
  · -- the lines below were one place further up
    obtain ⟨before, rfl⟩ := Nat.exists_eq_add_of_lt hbelow
    rw [List.getElem?_append_right (by omega), hlength,
      show place + before + 1 - place = before + 1 by omega, List.getElem?_cons_succ,
      List.getElem?_drop]
    exact (h (place + before)).trans (by omega)

/-- What holds no line feed occurs in a text with more lines if it occurs in the text or in
them. -/
theorem isInfix_insertAbove_iff
    {text : List Char}
    (h : '\n' ∉ line) :
    line <:+: insertAbove place text cs ↔ line <:+: cs ∨ line <:+: text := by
  constructor
  · intro hin
    obtain ⟨part, hpart, hline⟩ := exists_mem_pieces h hin
    rw [pieces_insertAbove, List.mem_append, List.mem_append] at hpart
    rcases hpart with habove | hinside | hbelow
    · exact Or.inl (hline.trans (isInfix_of_mem_pieces (List.mem_of_mem_take habove)))
    · exact Or.inr (hline.trans (isInfix_of_mem_pieces hinside))
    · exact Or.inl (hline.trans (isInfix_of_mem_pieces (List.mem_of_mem_drop hbelow)))
  · rintro (hin | hin)
    · obtain ⟨part, hpart, hline⟩ := exists_mem_pieces h hin
      refine hline.trans (isInfix_of_mem_pieces ?_)
      rw [pieces_insertAbove]
      rw [← List.take_append_drop place (pieces cs)] at hpart
      rcases List.mem_append.mp hpart with habove | hbelow
      · exact List.mem_append_left _ habove
      · exact List.mem_append_right _ (List.mem_append_right _ hbelow)
    · exact hin.trans (isInfix_joinLines (by simp))

end Text
end GormForge
