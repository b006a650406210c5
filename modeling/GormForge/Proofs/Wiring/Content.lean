import GormForge.Proofs.Text.Lines
import GormForge.Wiring.Marker

/-!
# Patching a content

What a patch does to the lines of a content, and that patching again changes nothing.

**Input.**  Insertions each of which has a line that is not blank; none brings in the marker
of an earlier one.

**Results.**
* `patchContent_cases`: a patch leaves the content alone or inserts the text above a marker.
* `Settled`: the insertion is present or its marker is missing.
* `isPresent_patchContent`: what is present stays there.
* `patchAll_settles`: after insertions were patched in, all are settled.
* `patchAll_of_settled`: a batch of settled insertions changes nothing.
* `isBatch_repositories`: the entries of repositories are a batch.
-/

namespace GormForge
namespace Insertion

open Text

variable {insertion other : Insertion}
variable {path : Path}
variable {content patched : String}
variable {patch : Patch}
variable {parts : List (List Char)}

/-! ## Marker lines -/

/-- No part is the marker line. -/
def Unmarked (insertion : Insertion) (parts : List (List Char)) : Prop :=
  ∀ part ∈ parts, trimChars part ≠ insertion.markerText

theorem markerPlaces_eq_nil_iff :
    insertion.markerPlaces parts = [] ↔ insertion.Unmarked parts := by
  unfold markerPlaces Unmarked
  rw [List.map_eq_nil_iff, List.filter_eq_nil_iff]
  constructor
  · intro h part hpart
    obtain ⟨i, hi⟩ := List.getElem?_of_mem hpart
    simpa using h (part, i) (by simpa [List.mem_zipIdx_iff_getElem?] using hi)
  · rintro h ⟨part, i⟩ hmem
    simpa using h part (List.fst_mem_of_mem_zipIdx hmem)

/-- The text goes right above the only marker line. -/
theorem insertAt_of_markerPlaces
    {i : Nat}
    (h : insertion.markerPlaces parts = [i]) :
    ∃ front marker back,
      parts = front ++ marker :: back ∧
        front.length = i ∧
        trimChars marker = insertion.markerText ∧
        insertion.insertAt i parts = front ++ insertion.lineFor marker :: marker :: back := by
  have hmem : i ∈ insertion.markerPlaces parts := by simp [h]
  unfold markerPlaces at hmem
  obtain ⟨⟨marker, place⟩, hfilter, rfl⟩ := List.mem_map.mp hmem
  obtain ⟨hzip, htrim⟩ := List.mem_filter.mp hfilter
  have hget : parts[place]? = some marker := by
    simpa [List.mem_zipIdx_iff_getElem?] using hzip
  obtain ⟨hlt, hmarker⟩ := List.getElem?_eq_some_iff.mp hget
  have hdrop : parts.drop place = marker :: parts.drop (place + 1) := by
    rw [← hmarker, List.getElem_cons_drop]
  refine ⟨parts.take place, marker, parts.drop (place + 1), ?_, ?_, by simpa using htrim, ?_⟩
  · rw [← hdrop, List.take_append_drop]
  · rw [List.length_take]
    omega
  · unfold insertAt
    rw [hdrop]

/-- A patch leaves the content alone or inserts the text above a marker line. -/
theorem patchContent_cases
    (h : insertion.patchContent path content = .ok (patched, patch)) :
    (insertion.isPresent content.toList = true ∧ patched = content ∧ patch = .alreadyPresent) ∨
      (insertion.Unmarked (pieces content.toList) ∧ patched = content ∧ patch = .noMarker ∧
        insertion.isPresent content.toList = false) ∨
      ∃ front marker back,
        pieces content.toList = front ++ marker :: back ∧
          trimChars marker = insertion.markerText ∧
          patched.toList = joinLines (front ++ insertion.lineFor marker :: marker :: back) ∧
          patch = .inserted (front.length + 1) := by
  unfold patchContent at h
  split at h
  · next hpresent =>
      cases h
      exact Or.inl ⟨hpresent, rfl, rfl⟩
  · next habsent =>
    simp only at h
    split at h
    · next hnone =>
        cases h
        exact Or.inr (Or.inl
          ⟨markerPlaces_eq_nil_iff.mp hnone, rfl, rfl, by simpa using habsent⟩)
    · next i hone =>
        obtain ⟨front, marker, back, hparts, hlength, htrim, hinsert⟩ :=
          insertAt_of_markerPlaces hone
        cases h
        refine Or.inr (Or.inr ⟨front, marker, back, hparts, htrim, ?_, by rw [hlength]⟩)
        rw [String.toList_ofList, hinsert]
    · cases h

/-! ## Settled insertions -/

/-- The insertion is present or its marker is missing. -/
def Settled (insertion : Insertion) (content : String) : Prop :=
  insertion.isPresent content.toList = true ∨ insertion.Unmarked (pieces content.toList)

/-- A settled insertion changes nothing. -/
theorem patchContent_of_settled
    (path : Path)
    (h : insertion.Settled content) :
    ∃ patch, insertion.patchContent path content = .ok (content, patch) ∧
      patch.isInserted = false := by
  unfold patchContent
  by_cases hpresent : insertion.isPresent content.toList = true
  · exact ⟨.alreadyPresent, by rw [if_pos hpresent], rfl⟩
  · refine ⟨.noMarker, ?_, rfl⟩
    rw [if_neg hpresent]
    simp only [markerPlaces_eq_nil_iff.mpr (h.resolve_left hpresent)]

theorem isPresent_iff
    {cs : List Char} :
    insertion.isPresent cs = true ↔ ∃ line ∈ insertion.keyLines, line <:+: cs := by
  simp [isPresent, contains_iff_isInfix]

theorem mem_keyLines
    {line : List Char}
    (h : line ∈ insertion.keyLines) :
    line <:+: insertion.text.toList ∧ '\n' ∉ line := by
  unfold keyLines at h
  obtain ⟨whole, hwhole, rfl⟩ := List.mem_map.mp (List.mem_filter.mp h).1
  have htrim := trimBy_isInfix isBlank whole
  obtain ⟨hin, hfeed⟩ := isInfix_of_mem_lines hwhole
  exact ⟨htrim.trans hin, fun hmem => hfeed (htrim.subset hmem)⟩

theorem prefix_lineFor
    (insertion : Insertion)
    (marker : List Char) :
    insertion.text.toList <+: insertion.lineFor marker := by
  unfold lineFor
  split
  · exact List.prefix_append _ _
  · exact List.prefix_rfl

/-- An insertion that was placed is present. -/
theorem isPresent_of_isPlaced
    (hkey : insertion.keyLines ≠ [])
    (h : insertion.patchContent path content = .ok (patched, patch))
    (hplaced : patch.isPlaced = true) :
    insertion.isPresent patched.toList = true := by
  rcases patchContent_cases h with ⟨hpresent, rfl, -⟩ | ⟨-, -, rfl, -⟩ |
    ⟨front, marker, back, -, -, hpatched, -⟩
  · exact hpresent
  · cases hplaced
  · obtain ⟨line, hline⟩ := List.exists_mem_of_ne_nil _ hkey
    refine isPresent_iff.mpr ⟨line, hline, ?_⟩
    rw [hpatched]
    exact ((mem_keyLines hline).1.trans (prefix_lineFor insertion marker).isInfix).trans
      (isInfix_joinLines (by simp))

/-- A patch settles its insertion. -/
theorem settled_patchContent
    (hkey : insertion.keyLines ≠ [])
    (h : insertion.patchContent path content = .ok (patched, patch)) :
    insertion.Settled patched := by
  rcases patchContent_cases h with ⟨hpresent, rfl, -⟩ | ⟨hnone, rfl, -⟩ |
    ⟨_, _, _, -, -, -, rfl⟩
  · exact Or.inl hpresent
  · exact Or.inr hnone
  · exact Or.inl (isPresent_of_isPlaced hkey h rfl)

/-- The lines of an inserted text are those of the insertion, up to blanks. -/
theorem unmarked_lineFor
    (marker : List Char)
    (h : other.Unmarked (pieces insertion.text.toList)) :
    other.Unmarked (pieces (insertion.lineFor marker)) := by
  unfold lineFor
  split
  · intro part hpart
    obtain ⟨line, hline, heq⟩ := trimChars_of_mem_pieces_append_return hpart
    rw [heq]
    exact h line hline
  · exact h

/-- The parts of a content into which a text was inserted. -/
theorem pieces_of_inserted
    {front back : List (List Char)}
    {marker : List Char}
    (hparts : pieces content.toList = front ++ marker :: back)
    (hpatched :
      patched.toList = joinLines (front ++ insertion.lineFor marker :: marker :: back)) :
    pieces patched.toList = front ++ (pieces (insertion.lineFor marker) ++ marker :: back) := by
  have hfeed : ∀ part ∈ front ++ marker :: back, '\n' ∉ part := by
    rw [← hparts]
    exact fun part hpart => noFeed_of_mem_pieces hpart
  rw [hpatched, pieces_joinLines_insert hfeed]

/-- What is present stays there. -/
theorem isPresent_patchContent
    (hpresent : other.isPresent content.toList = true)
    (h : insertion.patchContent path content = .ok (patched, patch)) :
    other.isPresent patched.toList = true := by
  rcases patchContent_cases h with ⟨-, rfl, -⟩ | ⟨-, rfl, -⟩ |
    ⟨front, marker, back, hparts, -, hpatched, -⟩
  · exact hpresent
  · exact hpresent
  obtain ⟨line, hline, hin⟩ := isPresent_iff.mp hpresent
  obtain ⟨part, hpart, hinpart⟩ := exists_mem_pieces (mem_keyLines hline).2 hin
  refine isPresent_iff.mpr ⟨line, hline, hinpart.trans ?_⟩
  rw [← joinLines_pieces patched.toList, pieces_of_inserted hparts hpatched]
  rw [hparts] at hpart
  apply isInfix_joinLines
  rcases List.mem_append.mp hpart with hfront | hback
  · exact List.mem_append_left _ hfront
  · exact List.mem_append_right _ (List.mem_append_right _ hback)

/-- A patch leaves another insertion settled whose marker it does not bring in. -/
theorem Settled.patchContent
    (hsettled : other.Settled content)
    (hclear : other.Unmarked (pieces insertion.text.toList))
    (h : insertion.patchContent path content = .ok (patched, patch)) :
    other.Settled patched := by
  rcases hsettled with hpresent | hnone
  · exact Or.inl (isPresent_patchContent hpresent h)
  rcases patchContent_cases h with ⟨-, rfl, -⟩ | ⟨-, rfl, -⟩ |
    ⟨front, marker, back, hparts, -, hpatched, -⟩
  · exact Or.inr hnone
  · exact Or.inr hnone
  right
  rw [hparts] at hnone
  rw [pieces_of_inserted hparts hpatched]
  intro part hpart
  rcases List.mem_append.mp hpart with hfront | hrest
  · exact hnone part (List.mem_append_left _ hfront)
  · rcases List.mem_append.mp hrest with hline | hback
    · exact unmarked_lineFor marker hclear part hline
    · exact hnone part (List.mem_append_right _ hback)

/-! ## Batches -/

/-- Insertions that can be patched into one content. -/
structure IsBatch (insertions : List Insertion) : Prop where
  keyed : ∀ insertion ∈ insertions, insertion.keyLines ≠ []
  /-- No insertion brings in a marker. -/
  clear : ∀ insertion ∈ insertions, ∀ other ∈ insertions,
    other.Unmarked (pieces insertion.text.toList)

variable {insertions : List Insertion}
variable {outcomes : List PatchOutcome}

theorem patchAll_cons_eq_ok_iff
    {rest : List Insertion} :
    patchAll path (insertion :: rest) content = .ok (patched, outcomes) ↔
      ∃ middle patch more,
        insertion.patchContent path content = .ok (middle, patch) ∧
          patchAll path rest middle = .ok (patched, more) ∧
          outcomes = ⟨path, insertion.text, patch⟩ :: more := by
  simp only [patchAll]
  cases hpatch : insertion.patchContent path content with
  | error e => simp
  | ok first =>
      obtain ⟨middle, patch⟩ := first
      cases hmore : patchAll path rest middle with
      | error e => simp [hmore]
      | ok later =>
          obtain ⟨final, more⟩ := later
          simp only [hmore, Except.ok.injEq, Prod.mk.injEq]
          constructor
          · rintro ⟨rfl, rfl⟩
            exact ⟨middle, patch, more, ⟨rfl, rfl⟩, by simp [hmore], rfl⟩
          · rintro ⟨_, _, _, ⟨rfl, rfl⟩, hrest, rfl⟩
            rw [hmore] at hrest
            cases hrest
            exact ⟨rfl, rfl⟩

/-- An insertion that a later one does not unsettle: it is the same, or its marker is not
brought in. -/
def Outlasts (insertion later : Insertion) : Prop :=
  insertion = later ∨ insertion.Unmarked (pieces later.text.toList)

theorem Outlasts.settled_patchContent
    (houtlasts : other.Outlasts insertion)
    (hkey : insertion.keyLines ≠ [])
    (hsettled : other.Settled content)
    (h : insertion.patchContent path content = .ok (patched, patch)) :
    other.Settled patched := by
  rcases houtlasts with rfl | hclear
  · exact Insertion.settled_patchContent hkey h
  · exact hsettled.patchContent hclear h

/-- Patching in insertions leaves one settled that outlasts them. -/
theorem Settled.patchAll
    (hkeyed : ∀ insertion ∈ insertions, insertion.keyLines ≠ [])
    (houtlasts : ∀ insertion ∈ insertions, other.Outlasts insertion)
    (hsettled : other.Settled content)
    (h : patchAll path insertions content = .ok (patched, outcomes)) :
    other.Settled patched := by
  induction insertions generalizing content outcomes with
  | nil =>
      cases h
      exact hsettled
  | cons insertion rest ih =>
      obtain ⟨middle, patch, more, hpatch, hmore, -⟩ := patchAll_cons_eq_ok_iff.mp h
      have hmiddle := (houtlasts insertion (List.mem_cons_self ..)).settled_patchContent
        (hkeyed insertion (List.mem_cons_self ..)) hsettled hpatch
      exact ih (fun other hother => hkeyed other (List.mem_cons_of_mem _ hother))
        (fun other hother => houtlasts other (List.mem_cons_of_mem _ hother)) hmiddle hmore

/-- After insertions were patched in each of which outlasts the later ones, all are settled. -/
theorem patchAll_settles
    (hkeyed : ∀ insertion ∈ insertions, insertion.keyLines ≠ [])
    (houtlasts : insertions.Pairwise Outlasts)
    (h : patchAll path insertions content = .ok (patched, outcomes)) :
    ∀ insertion ∈ insertions, insertion.Settled patched := by
  induction insertions generalizing content outcomes with
  | nil => simp
  | cons insertion rest ih =>
      obtain ⟨hlater, hrest⟩ := List.pairwise_cons.mp houtlasts
      have hkeyed' : ∀ other ∈ rest, other.keyLines ≠ [] :=
        fun other hother => hkeyed other (List.mem_cons_of_mem _ hother)
      obtain ⟨middle, patch, more, hpatch, hmore, -⟩ := patchAll_cons_eq_ok_iff.mp h
      have hmiddle := settled_patchContent (hkeyed insertion (List.mem_cons_self ..)) hpatch
      intro other hother
      rcases List.mem_cons.mp hother with rfl | hother
      · exact hmiddle.patchAll hkeyed' hlater hmore
      · exact ih hkeyed' hrest hmore other hother

theorem IsBatch.outlasts
    (h : IsBatch insertions) :
    insertions.Pairwise Outlasts :=
  List.pairwise_of_forall_mem_list fun insertion hinsertion later hlater =>
    Or.inr (h.clear later hlater insertion hinsertion)

/-- A batch of settled insertions changes nothing. -/
theorem patchAll_of_settled
    (path : Path)
    (h : ∀ insertion ∈ insertions, insertion.Settled content) :
    ∃ outcomes, patchAll path insertions content = .ok (content, outcomes) ∧
      ∀ outcome ∈ outcomes, outcome.patch.isInserted = false := by
  induction insertions with
  | nil => exact ⟨[], rfl, by simp⟩
  | cons insertion rest ih =>
      obtain ⟨patch, hpatch, hquiet⟩ :=
        patchContent_of_settled path (h insertion (List.mem_cons_self ..))
      obtain ⟨outcomes, hrest, hall⟩ :=
        ih fun other hother => h other (List.mem_cons_of_mem _ hother)
      refine ⟨⟨path, insertion.text, patch⟩ :: outcomes, ?_, ?_⟩
      · simp only [patchAll, hpatch, hrest]
      · intro outcome houtcome
        rcases List.mem_cons.mp houtcome with rfl | houtcome
        · exact hquiet
        · exact hall outcome houtcome

/-! ## Constructors -/

theorem toList_provider
    (marker ctor : String) :
    (provider marker ctor).text.toList = ("    " ++ ctor).toList ++ [','] := by
  simp [provider]

/-- The entry of a constructor has a line that is not blank. -/
theorem keyLines_provider
    (marker : String)
    {ctor : String}
    (h : '\n' ∉ ctor.toList) :
    (provider marker ctor).keyLines ≠ [] := by
  have hne : (provider marker ctor).text.toList ≠ [] := by
    rw [toList_provider]
    simp
  have hpieces : pieces (provider marker ctor).text.toList =
      [(provider marker ctor).text.toList] := by
    apply pieces_of_noFeed
    rw [toList_provider]
    simp [h]
  obtain ⟨front, hfront⟩ := exists_trimChars_append (c := ',') (by decide)
    ("    " ++ ctor).toList
  rw [← toList_provider marker] at hfront
  unfold keyLines lines
  rw [hpieces]
  simp [linesOfPieces, hne, hfront]

/-! ## Repositories -/

theorem toList_repository
    (package structName : String) :
    (repository package structName).text.toList =
      ("    " ++ (package ++ ".New" ++ structName ++ "Db")).toList ++ [','] :=
  toList_provider _ _

theorem noFeed_repository
    {package structName : String}
    (hpackage : '\n' ∉ package.toList)
    (hstruct : '\n' ∉ structName.toList) :
    '\n' ∉ (repository package structName).text.toList := by
  rw [toList_repository]
  simp [hpackage, hstruct]

theorem pieces_repository
    {package structName : String}
    (hpackage : '\n' ∉ package.toList)
    (hstruct : '\n' ∉ structName.toList) :
    pieces (repository package structName).text.toList =
      [(repository package structName).text.toList] :=
  pieces_of_noFeed (noFeed_repository hpackage hstruct)

/-- The entries of repositories are a batch. -/
theorem isBatch_repositories
    (h : ∀ insertion ∈ insertions, ∃ package structName,
      insertion = repository package structName ∧
        '\n' ∉ package.toList ∧ '\n' ∉ structName.toList) :
    IsBatch insertions where
  keyed insertion hinsertion := by
    obtain ⟨package, structName, rfl, hpackage, hstruct⟩ := h insertion hinsertion
    exact keyLines_provider _ (by simp [hpackage, hstruct])
  clear insertion hinsertion other hother := by
    obtain ⟨package, structName, rfl, hpackage, hstruct⟩ := h insertion hinsertion
    obtain ⟨package', structName', rfl, -, -⟩ := h other hother
    rw [pieces_repository hpackage hstruct]
    intro part hpart heq
    rw [List.mem_singleton.mp hpart, toList_repository] at heq
    obtain ⟨front, hfront⟩ := exists_trimChars_append (c := ',') (by decide)
      ("    " ++ (package ++ ".New" ++ structName ++ "Db")).toList
    rw [hfront] at heq
    have hlast : (repository package' structName').markerText.getLast? = some '=' := by
      have hmarker : (trimChars repositoryMarker.toList).getLast? = some '=' := by
        decide +kernel
      exact hmarker
    rw [← heq] at hlast
    simp at hlast

end Insertion
end GormForge
