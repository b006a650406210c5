import GormForge.Proofs.Text.Places
import GormForge.Proofs.Wiring.Content
import Mathlib.Data.List.Sort

/-!
# One edit at one place

What a patch does to a content, and exactly when.

**Input.**  Any content and any insertion.  The text may have several lines or none, the marker may
be blank, and lines may end in carriage returns.

**Algorithm.**  The places of the marker are found in increasing order.  A single one makes the
text go in above it, several make the patch fail, and neither is looked for when a line of the
text occurs in the content.

**Results.**
* `markerPlaces_eq_singleton_iff`: the marker has one place if it stands there and nowhere else.
* `patchContent_eq_inserted_iff`: when a text goes in, and what the content becomes.
* `patchContent_eq_error_iff`: when a patch fails, and which lines it lists.
* `patchContent_edits`: a patch edits one place of the content, or none.
-/

namespace GormForge
namespace Insertion

open Text

variable {insertion : Insertion}
variable {path : Path}
variable {content patched : String}
variable {cs marker : List Char}
variable {parts : List (List Char)}
variable {place line : Nat}

/-! ## Places of the marker -/

theorem mem_markerPlaces :
    place ∈ insertion.markerPlaces (pieces cs) ↔ IsLineAt insertion.markerText place cs := by
  simp only [markerPlaces, IsLineAt, List.mem_map, List.mem_filter, List.mem_zipIdx_iff_getElem?,
    decide_eq_true_eq, Option.map_eq_some_iff, Prod.exists, exists_eq_right]

theorem pairwise_markerPlaces
    (insertion : Insertion)
    (parts : List (List Char)) :
    (insertion.markerPlaces parts).Pairwise (· < ·) := by
  have hsublist : (insertion.markerPlaces parts).Sublist (parts.zipIdx.map (·.2)) :=
    List.Sublist.map _ List.filter_sublist
  rw [List.zipIdx_map_snd] at hsublist
  exact List.Pairwise.sublist hsublist List.pairwise_lt_range'

/-- The marker has one place if it stands there and nowhere else. -/
theorem markerPlaces_eq_singleton_iff :
    insertion.markerPlaces (pieces cs) = [place] ↔ IsOnlyLineAt insertion.markerText place cs := by
  constructor
  · intro h other
    rw [← mem_markerPlaces, h, List.mem_singleton]
  · intro h
    refine (insertion.pairwise_markerPlaces _).eq_of_mem_iff (List.pairwise_singleton _ _)
      fun other => ?_
    rw [mem_markerPlaces, h other, List.mem_singleton]

/-! ## What is inserted -/

theorem isPresent_eq_false_iff :
    insertion.isPresent cs = false ↔
      ∀ line ∈ lines insertion.text.toList, trimChars line ≠ [] → ¬ trimChars line <:+: cs := by
  simp [← Bool.not_eq_true, isPresent_iff, keyLines]

theorem noFeed_lineFor
    (h : '\n' ∉ insertion.text.toList)
    (marker : List Char) :
    '\n' ∉ insertion.lineFor marker := by
  unfold lineFor
  split <;> simp [h]

/-- A text that ends the way a line does has as many lines as before. -/
theorem length_pieces_lineFor
    (insertion : Insertion)
    (marker : List Char) :
    (pieces (insertion.lineFor marker)).length = (pieces insertion.text.toList).length := by
  unfold lineFor
  split
  · obtain ⟨init, last, hparts, hreturn⟩ :=
      exists_pieces_append (show '\n' ∉ ['\r'] by decide) insertion.text.toList
    rw [hparts, hreturn, List.length_append, List.length_append, List.length_singleton,
      List.length_singleton]
  · rfl

theorem joinLines_insertAt
    (h : (pieces cs)[place]? = some marker) :
    joinLines (insertion.insertAt place (pieces cs)) =
      insertAbove place (insertion.lineFor marker) cs := by
  obtain ⟨hlt, rfl⟩ := List.getElem?_eq_some_iff.mp h
  unfold insertAt insertAbove
  rw [List.drop_eq_getElem_cons hlt]

/-! ## Patches -/

/-- A text goes in if none of its lines occurs in the content and its marker is a single line. -/
theorem patchContent_eq_inserted_iff :
    insertion.patchContent path content = .ok (patched, .inserted line) ↔
      insertion.isPresent content.toList = false ∧
        ∃ place marker,
          line = place + 1 ∧
          IsOnlyLineAt insertion.markerText place content.toList ∧
          (pieces content.toList)[place]? = some marker ∧
          patched.toList = insertAbove place (insertion.lineFor marker) content.toList := by
  constructor
  · intro h
    unfold patchContent at h
    split at h
    · cases h
    · next habsent =>
        simp only at h
        split at h
        · cases h
        · next place hone =>
            cases h
            have honly := markerPlaces_eq_singleton_iff.mp hone
            obtain ⟨marker, hmarker, -⟩ := honly.exists_part
            refine ⟨by simpa using habsent, place, marker, rfl, honly, hmarker, ?_⟩
            rw [String.toList_ofList, joinLines_insertAt hmarker]
        · cases h
  · rintro ⟨habsent, place, marker, rfl, honly, hmarker, hpatched⟩
    unfold patchContent
    simp only [habsent, Bool.false_eq_true, if_false, markerPlaces_eq_singleton_iff.mpr honly]
    rw [joinLines_insertAt hmarker, ← hpatched, String.ofList_toList]

/-- What can go in above a marker that is a single line goes in. -/
theorem exists_patchContent
    (path : Path)
    (habsent : insertion.isPresent content.toList = false)
    (honly : IsOnlyLineAt insertion.markerText place content.toList)
    (hmarker : (pieces content.toList)[place]? = some marker) :
    ∃ patched,
      insertion.patchContent path content = .ok (patched, .inserted (place + 1)) ∧
        patched.toList = insertAbove place (insertion.lineFor marker) content.toList :=
  ⟨String.ofList (insertAbove place (insertion.lineFor marker) content.toList),
    patchContent_eq_inserted_iff.mpr
      ⟨habsent, place, marker, rfl, honly, hmarker, String.toList_ofList⟩, String.toList_ofList⟩

/-- A patch fails if none of the lines of the text occurs and the marker has several places. -/
theorem patchContent_eq_error_iff
    {e : WireError} :
    insertion.patchContent path content = .error e ↔
      insertion.isPresent content.toList = false ∧
        2 ≤ (insertion.markerPlaces (pieces content.toList)).length ∧
        e = .ambiguousMarker path (trim insertion.marker)
          ((insertion.markerPlaces (pieces content.toList)).map (· + 1)) := by
  unfold patchContent
  cases insertion.isPresent content.toList with
  | true => simp
  | false =>
      simp only [Bool.false_eq_true, if_false, true_and]
      split
      · next hnone => simp [hnone]
      · next hone => simp [hone]
      · next hnone hone =>
          generalize insertion.markerPlaces (pieces content.toList) = places at hnone hone ⊢
          match places with
          | [] => exact absurd rfl hnone
          | [place] => exact absurd rfl (hone place)
          | _ :: _ :: _ => simp [eq_comm, markerText, trim]

/-- A list of line numbers is that of the marker if it is increasing and has them all. -/
theorem eq_markerPlaces_iff
    {numbers : List Nat} :
    numbers = (insertion.markerPlaces (pieces cs)).map (· + 1) ↔
      numbers.Pairwise (· < ·) ∧
        ∀ number, number ∈ numbers ↔
          ∃ place, number = place + 1 ∧ IsLineAt insertion.markerText place cs := by
  have hincreasing : ((insertion.markerPlaces (pieces cs)).map (· + 1)).Pairwise (· < ·) :=
    List.pairwise_map.mpr ((insertion.pairwise_markerPlaces _).imp Nat.succ_lt_succ)
  have hmem : ∀ number, number ∈ (insertion.markerPlaces (pieces cs)).map (· + 1) ↔
      ∃ place, number = place + 1 ∧ IsLineAt insertion.markerText place cs := by
    intro number
    simp only [List.mem_map, mem_markerPlaces, eq_comm, and_comm]
  constructor
  · rintro rfl
    exact ⟨hincreasing, hmem⟩
  · rintro ⟨hpairwise, hnumbers⟩
    exact hpairwise.eq_of_mem_iff hincreasing fun number => by rw [hnumbers, hmem]

/-- A patch edits one place of a content, or none.

A text goes in above the only line that is the marker, with that line's ending; without the lines
of the text the content is as before, and the marker line follows them.  It does go in if none of
its lines occurs in the content and the marker is a single line.  Otherwise the content stays as it
is.  The patch fails exactly when no line of the text occurs in the content and at least two lines
are the marker, all of which it lists. -/
theorem patchContent_edits
    (insertion : Insertion)
    (path : Path)
    (content : String) :
    (∀ patched line, insertion.patchContent path content = .ok (patched, .inserted line) →
      ∃ place marker,
        line = place + 1 ∧
        IsOnlyLineAt insertion.markerText place content.toList ∧
        (pieces content.toList)[place]? = some marker ∧
        content.toList = firstLines place content.toList ++ linesFrom place content.toList ∧
        patched.toList = firstLines place content.toList ++
          (insertion.lineFor marker ++ '\n' :: linesFrom place content.toList) ∧
        withoutLines place (pieces insertion.text.toList).length patched.toList = content.toList ∧
        (pieces patched.toList)[place + (pieces insertion.text.toList).length]? = some marker) ∧
    (∀ place,
      (∀ line ∈ lines insertion.text.toList,
        trimChars line ≠ [] → ¬ trimChars line <:+: content.toList) →
      IsOnlyLineAt insertion.markerText place content.toList →
      ∃ patched, insertion.patchContent path content = .ok (patched, .inserted (place + 1))) ∧
    (∀ patched patch, insertion.patchContent path content = .ok (patched, patch) →
      patch.isInserted = false → patched = content) ∧
    ∀ e, insertion.patchContent path content = .error e ↔
      ∃ numbers,
        e = .ambiguousMarker path (trim insertion.marker) numbers ∧
        (∀ line ∈ lines insertion.text.toList,
          trimChars line ≠ [] → ¬ trimChars line <:+: content.toList) ∧
        2 ≤ numbers.length ∧
        numbers.Pairwise (· < ·) ∧
        ∀ number, number ∈ numbers ↔
          ∃ place, number = place + 1 ∧
            IsLineAt insertion.markerText place content.toList := by
  refine ⟨fun patched line h => ?_, fun place habsent honly => ?_, fun patched patch h hquiet => ?_,
    fun e => ?_⟩
  · obtain ⟨-, place, marker, rfl, honly, hmarker, hpatched⟩ := patchContent_eq_inserted_iff.mp h
    have hlt := (List.getElem?_eq_some_iff.mp hmarker).1
    rw [hpatched, ← length_pieces_lineFor insertion marker]
    exact ⟨place, marker, rfl, honly, hmarker, (firstLines_append_linesFrom hlt).symm,
      insertAbove_eq hlt _, withoutLines_insert hlt _, getElem?_insertAbove hmarker _⟩
  · obtain ⟨marker, hmarker, -⟩ := honly.exists_part
    obtain ⟨patched, hpatch, -⟩ :=
      exists_patchContent path (isPresent_eq_false_iff.mpr habsent) honly hmarker
    exact ⟨patched, hpatch⟩
  · rcases patchContent_cases h with ⟨-, hsame, -⟩ | ⟨-, hsame, -⟩ | ⟨_, _, _, -, -, -, rfl⟩
    · exact hsame
    · exact hsame
    · cases hquiet
  · rw [patchContent_eq_error_iff, isPresent_eq_false_iff]
    constructor
    · rintro ⟨habsent, hseveral, rfl⟩
      exact ⟨_, rfl, habsent, by rwa [List.length_map], eq_markerPlaces_iff.mp rfl⟩
    · rintro ⟨numbers, rfl, habsent, hseveral, hnumbers⟩
      obtain rfl := eq_markerPlaces_iff.mpr hnumbers
      rw [List.length_map] at hseveral
      exact ⟨habsent, hseveral, rfl⟩

/-- A text of two lines goes in where lines end in carriage returns. -/
theorem marker_edits :
    ∃ patched,
      (⟨"M", "a\nb"⟩ : Insertion).patchContent ⟨"app.go"⟩ "x\r\nM\r\n" =
          .ok (patched, .inserted 2) ∧
        patched = "x\r\na\nb\r\nM\r\n" ∧
        withoutLines 1 2 patched.toList = "x\r\nM\r\n".toList ∧
        (pieces patched.toList)[3]? = some "M\r".toList := by
  have hpatch : (⟨"M", "a\nb"⟩ : Insertion).patchContent ⟨"app.go"⟩ "x\r\nM\r\n" =
      .ok ("x\r\na\nb\r\nM\r\n", .inserted 2) :=
    patchContent_eq_inserted_iff.mpr ⟨by decide +kernel, 1, "M\r".toList, rfl,
      markerPlaces_eq_singleton_iff.mp (by decide +kernel), by decide +kernel, by decide +kernel⟩
  obtain ⟨place, marker, hline, -, hmarker, -, -, hwithout, hbelow⟩ :=
    (patchContent_edits _ _ _).1 _ _ hpatch
  obtain rfl : place = 1 := by omega
  have hreturn : marker = "M\r".toList := by
    rw [← Option.some_inj, ← hmarker]
    decide +kernel
  rw [hreturn] at hbelow
  exact ⟨_, hpatch, rfl, hwithout, hbelow⟩

end Insertion
end GormForge
