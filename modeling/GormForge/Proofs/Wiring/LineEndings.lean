import GormForge.Proofs.Wiring.Edits

/-!
# Line endings

What a patch does to a content whose lines end in a carriage return and a line feed.

**Input.**  A content in which every line feed follows a carriage return, and an insertion whose
text has neither.

**Algorithm.**  The new line takes over what its marker line ends in before the line feed.  The
last line of a content has no line feed, so it may do without the carriage return, too, and a line
that goes in above it then ends in a bare line feed.

**Results.**
* `isCrlf_iff`: the line feeds of a text follow carriage returns if all its lines but the last one
  end in one.
* `patchContent_isCrlf_iff`: a patch keeps the line endings unless the marker is the last line and
  the content does not end in a carriage return.
-/

namespace GormForge

/-! ## Carriage returns -/

namespace Text

variable {cs part rest last : List Char}
variable {init parts : List (List Char)}

/-- Every line feed of a text follows a carriage return. -/
def IsCrlf (cs : List Char) : Prop :=
  ∀ front back, cs = front ++ '\n' :: back → front.getLast? = some '\r'

theorem isCrlf_of_noFeed
    (h : '\n' ∉ part) :
    IsCrlf part := by
  rintro front back rfl
  simp at h

/-- The first line has to end in a carriage return, and what follows it has to be alike. -/
theorem isCrlf_append_feed
    (h : '\n' ∉ part) :
    IsCrlf (part ++ '\n' :: rest) ↔ part.getLast? = some '\r' ∧ IsCrlf rest := by
  constructor
  · intro hcrlf
    refine ⟨hcrlf part rest rfl, ?_⟩
    rintro front back rfl
    have hlast := hcrlf (part ++ '\n' :: front) back (by simp)
    -- the feed after the first line is no carriage return
    cases front with
    | nil => simp at hlast
    | cons c front => simpa [List.getLast?_append, List.getLast?_cons_cons] using hlast
  · rintro ⟨hreturn, hrest⟩ front back heq
    rcases List.append_eq_append_iff.mp heq with ⟨more, rfl, hmore⟩ | ⟨more, rfl, hmore⟩
    · cases more with
      | nil => simpa using hreturn
      | cons c more =>
          obtain ⟨rfl, htail⟩ := List.cons.inj hmore
          obtain ⟨init, rfl⟩ := List.getLast?_eq_some_iff.mp (hrest more back htail)
          simp [List.getLast?_append, List.getLast?_cons]
    · cases more with
      | nil => simpa using hreturn
      | cons c more =>
          obtain ⟨rfl, -⟩ := List.cons.inj hmore
          simp at h

theorem isCrlf_joinLines_iff
    (h : ∀ part ∈ parts, '\n' ∉ part) :
    IsCrlf (joinLines parts) ↔ ∀ part ∈ parts.dropLast, part.getLast? = some '\r' := by
  induction parts with
  | nil => simp [joinLines, isCrlf_of_noFeed]
  | cons part rest ih =>
      have hpart := h part (List.mem_cons_self ..)
      cases rest with
      | nil => simpa [joinLines] using isCrlf_of_noFeed hpart
      | cons next rest =>
          rw [joinLines_cons part (by simp), isCrlf_append_feed hpart,
            ih fun other hother => h other (List.mem_cons_of_mem _ hother),
            List.dropLast_cons_cons, List.forall_mem_cons]

/-- Line feeds follow carriage returns if all lines but the last one end in one. -/
theorem isCrlf_iff :
    IsCrlf cs ↔ ∀ part ∈ (pieces cs).dropLast, part.getLast? = some '\r' := by
  rw [← isCrlf_joinLines_iff fun part hpart => noFeed_of_mem_pieces hpart, joinLines_pieces]

instance (cs : List Char) : Decidable (IsCrlf cs) :=
  decidable_of_iff _ isCrlf_iff.symm

/-- A text ends in a carriage return if its last line does. -/
theorem getLast?_eq_return_iff
    (h : pieces cs = init ++ [last]) :
    cs.getLast? = some '\r' ↔ last.getLast? = some '\r' := by
  rw [← joinLines_pieces cs, h, joinLines_append init (by simp)]
  cases last with
  | nil =>
      rcases List.eq_nil_or_concat' init with rfl | ⟨front, part, rfl⟩
      · simp [joinLines]
      · simp [joinLines]
  | cons c last => simp [joinLines, List.getLast?_append]

end Text

/-! ## Patches -/

namespace Insertion

open Text

variable {insertion : Insertion}
variable {path : Path}
variable {content patched : String}
variable {marker : List Char}
variable {line : Nat}

/-- A text without carriage returns takes over the one at the end of its marker line. -/
theorem getLast?_lineFor
    (h : '\r' ∉ insertion.text.toList)
    (marker : List Char) :
    (insertion.lineFor marker).getLast? = some '\r' ↔ marker.getLast? = some '\r' := by
  unfold lineFor
  split
  · next hmarker => simp [hmarker]
  · next hmarker =>
      simp only [hmarker, iff_false]
      exact fun hlast => h (List.mem_of_getLast? hlast)

/-- A patch keeps line endings with carriage returns, unless the marker is the last line and the
content does not end in a carriage return: then the new line ends in a bare line feed. -/
theorem patchContent_isCrlf_iff
    (hcontent : IsCrlf content.toList)
    (hfeed : '\n' ∉ insertion.text.toList)
    (hreturn : '\r' ∉ insertion.text.toList)
    (h : insertion.patchContent path content = .ok (patched, .inserted line)) :
    IsCrlf patched.toList ↔
      line < (pieces content.toList).length ∨ content.toList.getLast? = some '\r' := by
  obtain ⟨-, place, marker, rfl, -, hmarker, hpatched⟩ := patchContent_eq_inserted_iff.mp h
  obtain ⟨hlt, hplace⟩ := List.getElem?_eq_some_iff.mp hmarker
  have hbelow : (pieces content.toList).drop place ≠ [] := by simpa using hlt
  have hlines := isCrlf_iff.mp hcontent
  -- the lines around the new one are those of the content
  rw [← List.take_append_drop place (pieces content.toList),
    List.dropLast_append_of_ne_nil hbelow, List.forall_mem_append] at hlines
  have hnew : IsCrlf patched.toList ↔ marker.getLast? = some '\r' := by
    rw [hpatched, isCrlf_iff, pieces_insertAbove_of_noFeed (noFeed_lineFor hfeed marker),
      List.dropLast_append_of_ne_nil (by simp), List.dropLast_cons_of_ne_nil hbelow,
      List.forall_mem_append, List.forall_mem_cons, getLast?_lineFor hreturn]
    exact ⟨fun hall => hall.2.1, fun hlast => ⟨hlines.1, hlast, hlines.2⟩⟩
  rw [hnew]
  rcases Nat.lt_or_eq_of_le (Nat.add_one_le_of_lt hlt) with hinner | hlast
  · have hmem : marker ∈ (pieces content.toList).dropLast := by
      refine List.mem_of_getElem? (i := place) ?_
      rw [List.getElem?_dropLast, if_pos (by omega), hmarker]
    simp [isCrlf_iff.mp hcontent marker hmem, hinner]
  · have hparts : pieces content.toList = (pieces content.toList).take place ++ [marker] := by
      have hdrop : (pieces content.toList).drop place = [marker] := by
        rw [List.drop_eq_getElem_cons hlt, hplace, hlast, List.drop_length]
      rw [← hdrop, List.take_append_drop]
    rw [← getLast?_eq_return_iff hparts]
    simp [← hlast]

/-- An entry goes in above a marker line in the middle. -/
theorem entry_keeps_returns :
    ∃ patched,
      (⟨"M", "a"⟩ : Insertion).patchContent ⟨"app.go"⟩ "x\r\nM\r\n" =
          .ok (patched, .inserted 2) ∧
        IsCrlf "x\r\nM\r\n".toList ∧
        '\n' ∉ "a".toList ∧ '\r' ∉ "a".toList ∧
        IsCrlf patched.toList := by
  have hpatch : (⟨"M", "a"⟩ : Insertion).patchContent ⟨"app.go"⟩ "x\r\nM\r\n" =
      .ok ("x\r\na\r\nM\r\n", .inserted 2) :=
    patchContent_eq_inserted_iff.mpr ⟨by decide +kernel, 1, "M\r".toList, rfl,
      markerPlaces_eq_singleton_iff.mp (by decide +kernel), by decide +kernel, by decide +kernel⟩
  have hcontent : IsCrlf "x\r\nM\r\n".toList := by decide +kernel
  refine ⟨_, hpatch, hcontent, by decide, by decide, ?_⟩
  exact (patchContent_isCrlf_iff hcontent (by decide) (by decide) hpatch).mpr
    (Or.inl (by decide +kernel))

/-- Above a marker that ends the content, a line goes in with a bare line feed. -/
theorem last_marker_bare_feed :
    ∃ patched,
      (repository "db" "User").patchContent ⟨"app.go"⟩
          ("a\r\n    " ++ repositoryMarker) = .ok (patched, .inserted 2) ∧
        IsCrlf ("a\r\n    " ++ repositoryMarker).toList ∧
        '\n' ∉ (repository "db" "User").text.toList ∧
        '\r' ∉ (repository "db" "User").text.toList ∧
        ¬ IsCrlf patched.toList := by
  have hpatch : (repository "db" "User").patchContent ⟨"app.go"⟩
      ("a\r\n    " ++ repositoryMarker) =
        .ok ("a\r\n    db.NewUserDb,\n    " ++ repositoryMarker, .inserted 2) :=
    patchContent_eq_inserted_iff.mpr ⟨by decide +kernel, 1, ("    " ++ repositoryMarker).toList,
      rfl, markerPlaces_eq_singleton_iff.mp (by decide +kernel), by decide +kernel,
      by decide +kernel⟩
  exact ⟨_, hpatch, by decide +kernel, by decide, by decide, by decide +kernel⟩

end Insertion
end GormForge
