import GormForge.Proofs.Wiring.Providers

/-!
# Patching again

A batch of insertions that was patched into the provider files is not patched in again.

**Input.**  Insertions with any markers, in any order and with repetitions, each of which has a
line that is not blank; no line of any of them is a marker.

**Algorithm.**  What counts is what the second call sees: a file into which all insertions went,
one after the other.  An insertion that is there stays there, and a marker that is missing stays
missing, because no later text brings it in.  The lines of a text do not tell what follows a
line feed at its end: that is a blank line in the file, and hence a marker if markers may be
blank.

**Results.**
* `settledIn_patchFiles`: after files were patched, all insertions are settled in all of them.
* `patchFiles_of_settledIn`: patching such files succeeds and changes nothing.
* `patch_again`: a second call succeeds, inserts nothing and leaves every file as it is.
-/

namespace GormForge

/-! ## Insertions given by their lines -/

namespace Insertion

open Text

variable {insertion other : Insertion}
variable {insertions : List Insertion}

theorem keyLines_ne_nil
    (h : ∃ line ∈ lines insertion.text.toList, trimChars line ≠ []) :
    insertion.keyLines ≠ [] := by
  obtain ⟨line, hline, hne⟩ := h
  have hkey : trimChars line ∈ insertion.keyLines :=
    List.mem_filter.mpr ⟨List.mem_map.mpr ⟨line, hline, rfl⟩, by simpa using hne⟩
  exact List.ne_nil_of_mem hkey

/-- A text none of whose lines is a marker brings it in at most as a blank line at its end. -/
theorem unmarked_of_lines
    (hlined : ∃ line ∈ lines insertion.text.toList, trimChars line ≠ [])
    (hclear : ∀ line ∈ lines insertion.text.toList, trimChars line ≠ other.markerText)
    (hended : other.markerText = [] → insertion.text.toList.getLast? ≠ some '\n') :
    other.Unmarked (pieces insertion.text.toList) := by
  intro part hpart hmarker
  rcases exists_line_of_mem_parts hpart with ⟨line, hline, htrim⟩ | ⟨rfl, hlast⟩
  · exact hclear line hline (htrim.symm.trans hmarker)
  · rcases getLast?_of_pieces hlast with hempty | hfeed
    · obtain ⟨line, hline, -⟩ := hlined
      rw [hempty] at hline
      cases hline
    · exact hended hmarker.symm hfeed

/-- Each of such insertions outlasts the later ones. -/
theorem outlasts_of_lines
    (hlined : ∀ insertion ∈ insertions,
      ∃ line ∈ lines insertion.text.toList, trimChars line ≠ [])
    (hclear : ∀ insertion ∈ insertions, ∀ line ∈ lines insertion.text.toList,
      ∀ other ∈ insertions, trimChars line ≠ other.markerText)
    (hended : insertions.Pairwise fun earlier later =>
      earlier ≠ later → earlier.markerText = [] → later.text.toList.getLast? ≠ some '\n') :
    insertions.Pairwise Outlasts := by
  refine hended.imp_of_mem fun {earlier later} hearlier hlater hlast => ?_
  by_cases hsame : earlier = later
  · exact Or.inl hsame
  · right
    exact unmarked_of_lines (hlined later hlater)
      (fun line hline => hclear later hlater line hline earlier hearlier) (hlast hsame)

end Insertion

/-! ## Files in which all is settled -/

namespace Providers

open FileTree Text

variable {insertions : List Insertion}
variable {outcomes : List PatchOutcome}
variable {tree after : FileTree}
variable {target : Path}
variable {paths : List Path}

/-- After files were patched, all insertions are settled in all of them. -/
theorem settledIn_patchFiles
    (hkeyed : ∀ insertion ∈ insertions, insertion.keyLines ≠ [])
    (houtlasts : insertions.Pairwise Insertion.Outlasts)
    (h : patchFiles insertions paths tree = (.ok outcomes, after)) :
    ∀ path ∈ paths, SettledIn insertions path after :=
  reads_patchFiles (fun _ _ _ _ hpatch => Insertion.patchAll_settles hkeyed houtlasts hpatch) h

/-- Patching such files succeeds and changes nothing. -/
theorem patchFiles_of_settledIn
    (h : ∀ path ∈ paths, SettledIn insertions path tree) :
    ∃ outcomes, patchFiles insertions paths tree = (.ok outcomes, tree) ∧
      ∀ outcome ∈ outcomes, outcome.patch.isInserted = false := by
  induction paths with
  | nil => exact ⟨[], rfl, by simp⟩
  | cons path rest ih =>
      obtain ⟨first, hfirst, hquiet⟩ := patchFile_of_settledIn (h path (List.mem_cons_self ..))
      obtain ⟨more, hrest, hall⟩ := ih fun other hother => h other (List.mem_cons_of_mem _ hother)
      refine ⟨first ++ more, ?_, ?_⟩
      · rw [patchFiles_cons, hfirst]
        simp only [hrest]
      · intro outcome houtcome
        rcases List.mem_append.mp houtcome with hin | hin
        · exact hquiet outcome hin
        · exact hall outcome hin

/-- The candidates are the same after they were patched. -/
theorem candidates_patchFiles
    (insertions : List Insertion)
    (h : candidates tree target = .ok paths) :
    candidates (patchFiles insertions paths tree).2 target = .ok paths := by
  obtain ⟨hrefills, houtline⟩ :
      Refills (fun _ => True) tree (patchFiles insertions paths tree).2 ∧
        (patchFiles insertions paths tree).2.outline = tree.outline :=
    refills_patchFiles_of fun _ _ _ _ => trivial
  exact candidates_congr h hrefills houtline

/-- Insertions that were patched into the files next to a target are not patched in again: a
second call succeeds, inserts nothing and changes nothing. -/
theorem patch_again
    (hlined : ∀ insertion ∈ insertions,
      ∃ line ∈ lines insertion.text.toList, trimChars line ≠ [])
    (hclear : ∀ insertion ∈ insertions, ∀ line ∈ lines insertion.text.toList,
      ∀ other ∈ insertions, trimChars line ≠ other.markerText)
    (hended : insertions.Pairwise fun earlier later =>
      earlier ≠ later → earlier.markerText = [] → later.text.toList.getLast? ≠ some '\n')
    (h : patch target insertions tree = (.ok outcomes, after)) :
    ∃ again,
      patch target insertions after = (.ok again, after) ∧
        ∀ outcome ∈ again, outcome.patch.isInserted = false := by
  rw [patch_of_candidates] at h
  split at h
  · cases h
  · next paths hcandidates =>
      have hkeyed : ∀ insertion ∈ insertions, insertion.keyLines ≠ [] :=
        fun insertion hinsertion => Insertion.keyLines_ne_nil (hlined insertion hinsertion)
      have hsettled := settledIn_patchFiles hkeyed
        (Insertion.outlasts_of_lines hlined hclear hended) h
      have hsame := candidates_patchFiles insertions hcandidates
      rw [h] at hsame
      rw [patch_of_candidates, hsame]
      exact patchFiles_of_settledIn hsettled

/-! ## One provider file -/

/-- A project with a single provider file. -/
def appTree (text : String) : FileTree where
  nodes := [(["app.go"], .file (.text text))]

theorem candidates_app
    (text : String) :
    candidates (appTree text) ⟨"db"⟩ = .ok [⟨"./app.go"⟩] := by
  have hlisting : (appTree text).listing [] = [("app.go", false)] :=
    listing_of_sorted rfl (by simp)
  refine candidates_eq_ok_iff.mpr ⟨[], rfl, rfl, by simp, ?_⟩
  rw [hlisting]
  decide +kernel

/-- Two entries, one of them on two lines and twice in the list. -/
def appInsertions : List Insertion :=
  [⟨"// repos", "    a.NewA,\n    a.NewB,"⟩, ⟨"// caches", "    c.NewC,"⟩,
    ⟨"// repos", "    a.NewA,\n    a.NewB,"⟩]

def appOutcomes : List PatchOutcome :=
  [⟨⟨"./app.go"⟩, "    a.NewA,\n    a.NewB,", .inserted 2⟩,
    ⟨⟨"./app.go"⟩, "    c.NewC,", .noMarker⟩,
    ⟨⟨"./app.go"⟩, "    a.NewA,\n    a.NewB,", .alreadyPresent⟩]

def appBefore : FileTree := appTree "var set = wire.NewSet(\r\n  // repos\r\n)\r\n"

def appAfter : FileTree :=
  appTree "var set = wire.NewSet(\r\n    a.NewA,\n    a.NewB,\r\n  // repos\r\n)\r\n"

theorem patch_app :
    patch ⟨"db"⟩ appInsertions appBefore = (.ok appOutcomes, appAfter) := by
  rw [patch_of_candidates, appBefore, candidates_app]
  exact Prod.ext (eq_ok_of_toOption (by decide +kernel)) (by decide +kernel)

/-- Entries that went into a file with carriage returns are not made again. -/
theorem patch_app_again :
    patch ⟨"db"⟩ appInsertions appBefore = (.ok appOutcomes, appAfter) ∧
      ∃ again,
        patch ⟨"db"⟩ appInsertions appAfter = (.ok again, appAfter) ∧
          ∀ outcome ∈ again, outcome.patch.isInserted = false :=
  ⟨patch_app, patch_again (by decide +kernel) (by decide +kernel) (by decide +kernel) patch_app⟩

/-- An entry above a blank line, and one that ends in a line feed. -/
def blankInsertions : List Insertion :=
  [⟨"", "bar"⟩, ⟨"M", "foo\n"⟩]

/-- The line feed at the end of a text makes a blank line, above which a second call inserts,
although no line of a text is a marker. -/
theorem blank_marker_again :
    (∀ insertion ∈ blankInsertions,
        (∃ line ∈ lines insertion.text.toList, trimChars line ≠ []) ∧
          ∀ line ∈ lines insertion.text.toList,
            ∀ other ∈ blankInsertions, trimChars line ≠ other.markerText) ∧
      patch ⟨"db"⟩ blankInsertions (appTree "abc\nM") =
        (.ok [⟨⟨"./app.go"⟩, "bar", .noMarker⟩, ⟨⟨"./app.go"⟩, "foo\n", .inserted 2⟩],
          appTree "abc\nfoo\n\nM") ∧
      patch ⟨"db"⟩ blankInsertions (appTree "abc\nfoo\n\nM") =
        (.ok [⟨⟨"./app.go"⟩, "bar", .inserted 3⟩, ⟨⟨"./app.go"⟩, "foo\n", .alreadyPresent⟩],
          appTree "abc\nfoo\nbar\n\nM") := by
  refine ⟨by decide +kernel, ?_, ?_⟩
  · rw [patch_of_candidates, candidates_app]
    exact Prod.ext (eq_ok_of_toOption (by decide +kernel)) (by decide +kernel)
  · rw [patch_of_candidates, candidates_app]
    exact Prod.ext (eq_ok_of_toOption (by decide +kernel)) (by decide +kernel)

end Providers
end GormForge
