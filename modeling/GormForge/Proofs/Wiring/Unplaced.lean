import GormForge.Proofs.Wiring.Again

/-!
# Entries without a place

What it means that an insertion is reported as unplaced.

**Input.**  The entries of the repositories of one package, whose names hold no blanks.

**Algorithm.**  Outcomes are matched with insertions by their texts, over all files.  All these
entries have one marker.  An entry that was placed in a file stays in it.  If one was not, then
the file has no marker line, so that the file is left as it is by all later entries.

**Results.**
* `isPresent_of_placedIn`: a placed text stands in the content in the end.
* `lacks_of_not_placedIn`: an insertion that was not placed is missing, and so is its marker.
* `placedIn_iff`: an insertion was placed in some file if it stands in one in the end.
* `mem_unplaced_repository_iff`: an entry is unplaced if it stands in no candidate in the end.
-/

namespace GormForge

/-- A text was inserted or found already. -/
def PlacedIn (text : String) (outcomes : List PatchOutcome) : Prop :=
  ∃ outcome ∈ outcomes, outcome.text = text ∧ outcome.patch.isPlaced = true

theorem placedIn_append
    {text : String}
    {front back : List PatchOutcome} :
    PlacedIn text (front ++ back) ↔ PlacedIn text front ∨ PlacedIn text back := by
  simp only [PlacedIn, List.mem_append, or_and_right, exists_or]

theorem placedIn_cons
    {text : String}
    {outcome : PatchOutcome}
    {rest : List PatchOutcome} :
    PlacedIn text (outcome :: rest) ↔
      (outcome.text = text ∧ outcome.patch.isPlaced = true) ∨ PlacedIn text rest := by
  simp [PlacedIn]

/-! ## One content -/

namespace Insertion

open Text

variable {insertion other : Insertion}
variable {insertions : List Insertion}
variable {path : Path}
variable {content patched : String}
variable {outcomes : List PatchOutcome}

/-- What is present stays there. -/
theorem isPresent_patchAll
    (hpresent : other.isPresent content.toList = true)
    (h : patchAll path insertions content = .ok (patched, outcomes)) :
    other.isPresent patched.toList = true := by
  induction insertions generalizing content outcomes with
  | nil =>
      cases h
      exact hpresent
  | cons insertion rest ih =>
      obtain ⟨middle, patch, more, hpatch, hmore, -⟩ := patchAll_cons_eq_ok_iff.mp h
      exact ih (isPresent_patchContent hpresent hpatch) hmore

theorem isPresent_congr
    (h : insertion.text = other.text)
    (cs : List Char) :
    insertion.isPresent cs = other.isPresent cs := by
  unfold isPresent keyLines
  rw [h]

/-- A placed text stands in the content in the end. -/
theorem isPresent_of_placedIn
    (hkeyed : ∀ insertion ∈ insertions, insertion.keyLines ≠ [])
    (h : patchAll path insertions content = .ok (patched, outcomes))
    (hplaced : PlacedIn other.text outcomes) :
    other.isPresent patched.toList = true := by
  induction insertions generalizing content outcomes with
  | nil =>
      cases h
      obtain ⟨_, hmem, -⟩ := hplaced
      cases hmem
  | cons insertion rest ih =>
      obtain ⟨middle, patch, more, hpatch, hmore, rfl⟩ := patchAll_cons_eq_ok_iff.mp h
      rcases placedIn_cons.mp hplaced with ⟨htext, hfirst⟩ | hlater
      · refine isPresent_patchAll ?_ hmore
        rw [← isPresent_congr htext]
        exact isPresent_of_isPlaced (hkeyed insertion (List.mem_cons_self ..)) hpatch hfirst
      · exact ih (fun other hother => hkeyed other (List.mem_cons_of_mem _ hother)) hmore hlater

/-- The content holds neither an insertion nor any marker. -/
structure Lacks (insertions : List Insertion) (insertion : Insertion) (content : String) :
    Prop where
  absent : insertion.isPresent content.toList = false
  unmarked : ∀ other ∈ insertions, other.Unmarked (pieces content.toList)

/-- Without markers nothing changes. -/
theorem Lacks.patchAll
    (hlacks : Lacks insertions insertion content)
    (h : patchAll path insertions content = .ok (patched, outcomes)) :
    patched = content := by
  obtain ⟨_, hsame, -⟩ :=
    patchAll_of_settled path fun other hother => Or.inr (hlacks.unmarked other hother)
  rw [hsame] at h
  cases h
  rfl

/-- An insertion that was not placed is missing in the end, and so is its marker. -/
theorem lacks_of_not_placedIn
    (hmarker : ∀ a ∈ insertions, ∀ b ∈ insertions, a.markerText = b.markerText)
    (h : patchAll path insertions content = .ok (patched, outcomes))
    (hin : insertion ∈ insertions)
    (hnot : ¬ PlacedIn insertion.text outcomes) :
    Lacks insertions insertion patched := by
  induction insertions generalizing content outcomes with
  | nil => cases hin
  | cons first rest ih =>
      obtain ⟨middle, patch, more, hpatch, hmore, rfl⟩ := patchAll_cons_eq_ok_iff.mp h
      rw [placedIn_cons, not_or] at hnot
      have hall : ∀ {cs}, insertion.Unmarked cs → ∀ other ∈ first :: rest, other.Unmarked cs := by
        intro cs hnone other hother part hpart
        rw [hmarker other hother insertion hin]
        exact hnone part hpart
      rcases List.mem_cons.mp hin with rfl | hrest
      · rcases patchContent_cases hpatch with ⟨-, -, rfl⟩ | ⟨hnone, rfl, -, habsent⟩ |
          ⟨_, _, _, -, -, -, rfl⟩
        · exact absurd ⟨rfl, rfl⟩ hnot.1
        · -- the marker is missing: nothing changes any more
          have hlacks : Lacks rest insertion middle :=
            ⟨habsent, fun other hother => hall hnone other (List.mem_cons_of_mem _ hother)⟩
          rw [hlacks.patchAll hmore]
          exact ⟨habsent, hall hnone⟩
        · exact absurd ⟨rfl, rfl⟩ hnot.1
      · have hlacks := ih
          (fun a ha b hb => hmarker a (List.mem_cons_of_mem _ ha) b (List.mem_cons_of_mem _ hb))
          hmore hrest hnot.2
        exact ⟨hlacks.absent, hall (hlacks.unmarked insertion hrest)⟩

/-! ## Entries of repositories -/

/-- The constructor of a repository, followed by a comma. -/
def constructorText (package structName : String) : String :=
  package ++ ".New" ++ structName ++ "Db,"

variable {package structName : String}

theorem toList_repository_eq
    (package structName : String) :
    (repository package structName).text.toList =
      "    ".toList ++ (constructorText package structName).toList := by
  rw [toList_repository]
  simp [constructorText]

/-- The entry of a repository is its constructor, once trimmed. -/
theorem trimChars_repository
    (hpackage : ∀ c ∈ package.toList, isBlank c = false)
    (hstruct : ∀ c ∈ structName.toList, isBlank c = false) :
    trimChars (repository package structName).text.toList =
      (constructorText package structName).toList := by
  have hctor : ∀ c ∈ (constructorText package structName).toList, isBlank c = false := by
    intro c hc
    simp only [constructorText, String.toList_append, List.mem_append] at hc
    rcases hc with ((hc | hc) | hc) | hc
    · exact hpackage c hc
    · exact noBlank_of_all (by decide) c hc
    · exact hstruct c hc
    · exact noBlank_of_all (by decide) c hc
  rw [toList_repository_eq, trimChars_append_of_blank (List.all_eq_true.mp (by decide)),
    trimChars_of_noBlank hctor]

/-- The entry of a repository has one line: its constructor. -/
theorem keyLines_repository
    (hpackage : ∀ c ∈ package.toList, isBlank c = false)
    (hstruct : ∀ c ∈ structName.toList, isBlank c = false) :
    (repository package structName).keyLines = [(constructorText package structName).toList] := by
  have hctor : (constructorText package structName).toList ≠ [] := by simp [constructorText]
  have htext : (repository package structName).text.toList ≠ [] := by
    rw [toList_repository_eq]
    simp
  unfold keyLines lines
  rw [pieces_repository (noFeed_of_noBlank hpackage) (noFeed_of_noBlank hstruct), linesOfPieces,
    if_neg htext, List.map_singleton, trimChars_repository hpackage hstruct]
  simp [hctor]

theorem keyed_repositories
    {structNames : List String}
    (hpackage : ∀ c ∈ package.toList, isBlank c = false)
    (hstructs : ∀ structName ∈ structNames, ∀ c ∈ structName.toList, isBlank c = false) :
    ∀ insertion ∈ structNames.map (repository package), insertion.keyLines ≠ [] := by
  intro insertion hinsertion
  obtain ⟨structName, hstruct, rfl⟩ := List.mem_map.mp hinsertion
  rw [keyLines_repository hpackage (hstructs structName hstruct)]
  exact List.cons_ne_nil _ _

/-- The entries of repositories have one marker. -/
theorem markerText_repositories
    (package : String)
    (structNames : List String) :
    ∀ a ∈ structNames.map (repository package), ∀ b ∈ structNames.map (repository package),
      a.markerText = b.markerText := by
  intro a ha b hb
  obtain ⟨_, -, rfl⟩ := List.mem_map.mp ha
  obtain ⟨_, -, rfl⟩ := List.mem_map.mp hb
  rfl

theorem isPresent_repository_iff
    (hpackage : ∀ c ∈ package.toList, isBlank c = false)
    (hstruct : ∀ c ∈ structName.toList, isBlank c = false)
    {cs : List Char} :
    (repository package structName).isPresent cs = true ↔
      (constructorText package structName).toList <:+: cs := by
  rw [isPresent_iff, keyLines_repository hpackage hstruct]
  simp

end Insertion

/-! ## Files -/

namespace Providers

open FileTree Text

variable {insertion : Insertion}
variable {insertions : List Insertion}
variable {outcomes : List PatchOutcome}
variable {tree after : FileTree}
variable {target : Path}
variable {paths : List Path}

theorem mem_unplaced_iff :
    insertion ∈ unplaced insertions outcomes ↔
      insertion ∈ insertions ∧ ¬ PlacedIn insertion.text outcomes := by
  simp only [unplaced, List.mem_filter, List.all_eq_true, Bool.or_eq_true, bne_iff_ne,
    Bool.not_eq_true', PlacedIn, not_exists, not_and, Bool.not_eq_true, or_iff_not_imp_left,
    not_not]

theorem keeps_present
    (insertions : List Insertion)
    (insertion : Insertion) :
    Keeps insertions fun content => insertion.isPresent content.toList = true :=
  fun _ _ _ _ hpatch hpresent => Insertion.isPresent_patchAll hpresent hpatch

theorem keeps_lacks
    (insertions : List Insertion)
    (insertion : Insertion) :
    Keeps insertions (Insertion.Lacks insertions insertion) := by
  intro path content patched outcomes hpatch hlacks
  rw [hlacks.patchAll hpatch]
  exact hlacks

/-- An insertion was placed in some file if it stands in one in the end. -/
theorem placedIn_iff
    (hkeyed : ∀ insertion ∈ insertions, insertion.keyLines ≠ [])
    (hmarker : ∀ a ∈ insertions, ∀ b ∈ insertions, a.markerText = b.markerText)
    (hin : insertion ∈ insertions)
    (h : patchFiles insertions paths tree = (.ok outcomes, after)) :
    PlacedIn insertion.text outcomes ↔
      ∃ path ∈ paths, Reads (fun content => insertion.isPresent content.toList = true) path after := by
  induction paths generalizing tree outcomes with
  | nil =>
      cases h
      simp [PlacedIn]
  | cons path rest ih =>
      obtain ⟨first, middle, more, hfirst, hrest, rfl⟩ := patchFiles_cons_eq_ok_iff.mp h
      obtain ⟨content, patched, -, hpatch, hread⟩ := reads_patchFile hfirst
      rw [placedIn_append, ih hrest, List.exists_mem_cons_iff]
      by_cases hplaced : PlacedIn insertion.text first
      · have hpresent := Insertion.isPresent_of_placedIn hkeyed hpatch hplaced
        have hafter := Reads.patchFiles (keeps_present insertions insertion)
          ⟨patched, hread, hpresent⟩ rest
        rw [hrest] at hafter
        exact ⟨fun _ => Or.inl hafter, fun _ => Or.inl hplaced⟩
      · have hlacks := Insertion.lacks_of_not_placedIn hmarker hpatch hin hplaced
        have hafter := Reads.patchFiles (keeps_lacks insertions insertion)
          ⟨patched, hread, hlacks⟩ rest
        rw [hrest] at hafter
        have hnot : ¬ Reads (fun content => insertion.isPresent content.toList = true)
            path after := by
          rintro ⟨text, htext, hpresent⟩
          obtain ⟨_, hsame, hmissing⟩ := hafter
          rw [htext] at hsame
          cases hsame
          rw [hmissing.absent] at hpresent
          cases hpresent
        exact or_congr ⟨fun h => absurd h hplaced, fun h => absurd h hnot⟩ Iff.rfl

/-- Which entries are reported as unplaced: those whose constructor stands in no candidate in
the end. -/
theorem mem_unplaced_repository_iff
    {package : String}
    {structNames : List String}
    (hpackage : ∀ c ∈ package.toList, isBlank c = false)
    (hstructs : ∀ structName ∈ structNames, ∀ c ∈ structName.toList, isBlank c = false)
    (h : patch target (structNames.map (Insertion.repository package)) tree =
      (.ok outcomes, after)) :
    ∃ paths,
      candidates tree target = .ok paths ∧
        candidates after target = .ok paths ∧
        (∀ path ∈ paths, ∃ content, after.readText path = .ok content) ∧
        ∀ structName ∈ structNames,
          Insertion.repository package structName ∈
              unplaced (structNames.map (Insertion.repository package)) outcomes ↔
            ∀ path ∈ paths, ∀ content, after.readText path = .ok content →
              ¬ (package ++ ".New" ++ structName ++ "Db,").toList <:+: content.toList := by
  rw [patch_of_candidates] at h
  split at h
  · cases h
  · next paths hcandidates =>
      have hsame := candidates_patchFiles (structNames.map (Insertion.repository package))
        hcandidates
      rw [h] at hsame
      have hkeyed := Insertion.keyed_repositories hpackage hstructs
      have hmarker := Insertion.markerText_repositories package structNames
      refine ⟨paths, hcandidates, hsame, ?_, ?_⟩
      · intro path hpath
        obtain ⟨content, hread, -⟩ :=
          reads_patchFiles (P := fun _ => True) (fun _ _ _ _ _ => trivial) h path hpath
        exact ⟨content, hread⟩
      · intro structName hstruct
        have hin := List.mem_map_of_mem (f := Insertion.repository package) hstruct
        have hpresent : ∀ cs : List Char,
            (Insertion.repository package structName).isPresent cs = true ↔
              (Insertion.constructorText package structName).toList <:+: cs := fun _ =>
          Insertion.isPresent_repository_iff hpackage (hstructs structName hstruct)
        rw [mem_unplaced_iff, placedIn_iff hkeyed hmarker hin h]
        simp only [Reads, hpresent, Insertion.constructorText]
        constructor
        · rintro ⟨-, hnone⟩ path hpath content hread hinfix
          exact hnone ⟨path, hpath, content, hread, hinfix⟩
        · rintro hnone
          refine ⟨hin, ?_⟩
          rintro ⟨path, hpath, content, hread, hinfix⟩
          exact hnone path hpath content hread hinfix

/-- Of two repositories one is listed in a file without a marker, and the other is unplaced. -/
theorem post_unplaced :
    patch ⟨"db"⟩ (["User", "Post"].map (Insertion.repository "db"))
        (appTree "wire.NewSet(db.NewUserDb,)") =
      (.ok [⟨⟨"./app.go"⟩, "    db.NewUserDb,", .alreadyPresent⟩,
        ⟨⟨"./app.go"⟩, "    db.NewPostDb,", .noMarker⟩], appTree "wire.NewSet(db.NewUserDb,)") ∧
      ∃ paths,
        candidates (appTree "wire.NewSet(db.NewUserDb,)") ⟨"db"⟩ = .ok paths ∧
          ∀ path ∈ paths, ∀ content,
            (appTree "wire.NewSet(db.NewUserDb,)").readText path = .ok content →
              ¬ "db.NewPostDb,".toList <:+: content.toList := by
  have hpatch : patch ⟨"db"⟩ (["User", "Post"].map (Insertion.repository "db"))
        (appTree "wire.NewSet(db.NewUserDb,)") =
      (.ok [⟨⟨"./app.go"⟩, "    db.NewUserDb,", .alreadyPresent⟩,
        ⟨⟨"./app.go"⟩, "    db.NewPostDb,", .noMarker⟩], appTree "wire.NewSet(db.NewUserDb,)") := by
    rw [patch_of_candidates, candidates_app]
    exact Prod.ext (eq_ok_of_toOption (by decide +kernel)) (by decide +kernel)
  have hstructs : ∀ structName ∈ ["User", "Post"], ∀ c ∈ structName.toList,
      isBlank c = false := by
    intro structName hin
    refine noBlank_of_all ?_
    revert structName
    decide
  obtain ⟨paths, hpaths, -, -, hunplaced⟩ :=
    mem_unplaced_repository_iff (noBlank_of_all (by decide)) hstructs hpatch
  exact ⟨hpatch, paths, hpaths,
    (hunplaced "Post" (by simp)).mp (by decide +kernel)⟩

end Providers
end GormForge
