import GormForge.Proofs.FileTree.Entries
import GormForge.Proofs.Wiring.Content
import GormForge.Wiring.Providers

/-!
# Patching provider files

What patching does to a tree, and that patching again changes nothing, even after it stopped
at a failure.

**Results.**
* `candidates_congr`: the candidates depend on the outline of a tree.
* `patchFile_cases`: patching a file writes that file or changes nothing.
* `quiet_patchFiles`: after files were patched, each of them is settled or fails as it did.
* `patchFiles_of_quiet`: patching such files changes nothing and inserts nothing.
-/

namespace GormForge
namespace Providers

open FileTree

variable {insertions : List Insertion}
variable {tree after middle : FileTree}
variable {location : Location}
variable {target path other : Path}
variable {paths : List Path}

/-! ## Candidates -/

theorem isEmpty_directoryOf
    (target : Path) :
    (directoryOf target).text.isEmpty = false := by
  unfold directoryOf
  cases target.parent? with
  | none => decide
  | some parent =>
      simp only
      split
      · decide
      · next hne => simpa using hne

/-- The candidates are the files that the directory lists. -/
theorem candidates_eq_ok_iff :
    candidates tree target = .ok paths ↔
      ∃ location,
        tree.resolve (directoryOf target) = .ok location ∧
          tree.get? location = some .directory ∧
          paths ≠ [] ∧
          paths = ((tree.listing location).filter fun entry => !entry.2).map
            fun entry => (directoryOf target).child entry.1 := by
  have hlisting : ∀ location,
      ((tree.listing location).filter fun entry => !entry.2).map
          (fun entry => (directoryOf target).child entry.1) =
        ((tree.entriesAt location).filter fun entry => !entry.2.isDirectory).map
          fun entry => (directoryOf target).child entry.1 := by
    intro location
    unfold listing
    rw [List.filter_map, List.map_map]
    rfl
  unfold candidates readDirectory
  simp only [hlisting]
  cases tree.resolve (directoryOf target) with
  | error e => simp
  | ok location =>
      cases hnode : tree.get? location with
      | none => simp [hnode]
      | some node =>
          cases node with
          | file content => simp [hnode]
          | directory =>
              simp only [Except.ok.injEq, exists_eq_left', hnode, true_and]
              split
              · next hnil =>
                  simp only [List.isEmpty_iff] at hnil
                  simp [hnil]
              · next hne =>
                  simp only [Except.ok.injEq]
                  constructor
                  · rintro rfl
                    exact ⟨by simpa using hne, rfl⟩
                  · rintro ⟨-, rfl⟩
                    rfl

/-- The candidates depend on the outline of a tree. -/
theorem candidates_congr
    {writes : Location → Prop}
    (h : candidates tree target = .ok paths)
    (hrefills : Refills writes tree after)
    (houtline : after.outline = tree.outline) :
    candidates after target = .ok paths := by
  obtain ⟨location, hres, hdir, hne, hpaths⟩ := candidates_eq_ok_iff.mp h
  refine candidates_eq_ok_iff.mpr
    ⟨location, hrefills.resolve_ok_iff.mpr hres, hrefills.directory hdir, hne, ?_⟩
  rw [listing_congr houtline]
  exact hpaths

/-- The candidates are files in one directory. -/
theorem exists_name_of_mem_candidates
    (hproper : Proper tree)
    (h : candidates tree target = .ok paths)
    (hpath : path ∈ paths) :
    ∃ name, Path.IsName name ∧ path = (directoryOf target).child name := by
  obtain ⟨location, -, -, -, rfl⟩ := candidates_eq_ok_iff.mp h
  obtain ⟨entry, hentry, rfl⟩ := List.mem_map.mp hpath
  obtain ⟨node, hnode, rfl⟩ := List.mem_map.mp (List.mem_filter.mp hentry).1
  exact ⟨node.1, hproper.isName_of_mem hnode, rfl⟩

theorem exists_holds_of_candidates
    (h : candidates tree target = .ok paths) :
    ∃ location,
      tree.destination (directoryOf target) = .ok location ∧
        Holds tree (directoryOf target) location := by
  obtain ⟨location, hres, hdir, -⟩ := candidates_eq_ok_iff.mp h
  exact holds_of_isDirectory (isDirectory_iff.mpr ⟨location, hres, hdir⟩)
    (isEmpty_directoryOf target)

/-! ## One file -/

/-- Patching a file writes that file or changes nothing. -/
theorem patchFile_cases
    {result : Except WireError (List PatchOutcome)}
    (h : patchFile insertions path tree = (result, after)) :
    (after = tree ∧ ∃ e, result = .error e) ∨
      ∃ content patched outcomes location,
        result = .ok outcomes ∧
          tree.resolve path = .ok location ∧
          tree.get? location = some (.file (.text content)) ∧
          Insertion.patchAll path insertions content = .ok (patched, outcomes) ∧
          after = tree.place location (.file (.text patched)) := by
  unfold patchFile at h
  split at h
  · cases h
    exact Or.inl ⟨rfl, _, rfl⟩
  · next content hread =>
      obtain ⟨location, hres, hnode⟩ := readText_eq_ok_iff.mp hread
      split at h
      · cases h
        exact Or.inl ⟨rfl, _, rfl⟩
      · next patched outcomes hpatch =>
          split at h
          · next hsame =>
              cases h
              refine Or.inr ⟨content, patched, outcomes, location, rfl, hres, hnode, hpatch, ?_⟩
              rw [hsame, place_same hnode (ne_nil_of_file hnode)]
          · split at h
            · cases h
              exact Or.inl ⟨rfl, _, rfl⟩
            · next written hwrite =>
                cases h
                obtain ⟨-, place, hplace, -, rfl⟩ := write_eq_ok_iff.mp hwrite
                rw [hres] at hplace
                cases hplace
                exact Or.inr ⟨content, patched, outcomes, location, rfl, hres, hnode, hpatch, rfl⟩

/-- Patching a file that lies in a directory writes below that directory, and only what was
there. -/
theorem refills_patchFile
    {writes : Location → Prop}
    (hwrites : ∀ location, tree.resolve path = .ok location → writes location) :
    Refills writes tree (patchFile insertions path tree).2 ∧
      (patchFile insertions path tree).2.outline = tree.outline := by
  rcases h : patchFile insertions path tree with ⟨result, after⟩
  rcases patchFile_cases h with ⟨rfl, -⟩ | ⟨content, patched, _, location, -, hres, hnode, -, rfl⟩
  · exact ⟨Refills.refl _ _, rfl⟩
  · exact ⟨refills_place_file (by simp [hnode]) (hwrites location hres), outline_place hnode⟩

theorem refills_of_patchFile
    {result : Except WireError (List PatchOutcome)}
    (h : patchFile insertions path tree = (result, after)) :
    Refills (fun _ => True) tree after := by
  have hrefills : Refills (fun _ => True) tree (patchFile insertions path tree).2 :=
    (refills_patchFile fun _ _ => trivial).1
  rw [h] at hrefills
  exact hrefills

/-! ## Properties of one file -/

variable {P : String → Prop}

/-- A path reads as a text with a property. -/
def Reads (P : String → Prop) (path : Path) (tree : FileTree) : Prop :=
  ∃ content, tree.readText path = .ok content ∧ P content

/-- A property that a text keeps when insertions are patched in. -/
def Keeps (insertions : List Insertion) (P : String → Prop) : Prop :=
  ∀ path content patched outcomes,
    Insertion.patchAll path insertions content = .ok (patched, outcomes) → P content → P patched

/-- A file keeps such a property when any file is patched. -/
theorem Reads.patchFile
    (hkeeps : Keeps insertions P)
    (h : Reads P path tree)
    (other : Path) :
    Reads P path (patchFile insertions other tree).2 := by
  rcases hpatch : Providers.patchFile insertions other tree with ⟨result, after⟩
  rcases patchFile_cases hpatch with ⟨rfl, -⟩ |
    ⟨old, patched, outcomes, location, -, hres, hnode, hall, rfl⟩
  · exact h
  · obtain ⟨content, hread, hcontent⟩ := h
    obtain ⟨place, hplace, htext⟩ := readText_eq_ok_iff.mp hread
    have hrefills : Refills (fun _ => True) tree (tree.place location (.file (.text patched))) :=
      refills_place_file (by simp [hnode]) trivial
    have hplace' := hrefills.resolve_ok_iff.mpr hplace
    by_cases hsame : location = place
    · -- the same file, possibly under another path
      subst hsame
      rw [hnode] at htext
      cases htext
      have hroot := ne_nil_of_file hnode
      exact ⟨patched, readText_eq_ok_iff.mpr ⟨location, hplace', by simp [hroot]⟩,
        hkeeps other old patched outcomes hall hcontent⟩
    · refine ⟨content, readText_eq_ok_iff.mpr ⟨place, hplace', ?_⟩, hcontent⟩
      rw [get?_place, if_neg fun h => hsame h.1]
      exact htext

/-- A patched file reads as its text with the insertions patched in. -/
theorem reads_patchFile
    {outcomes : List PatchOutcome}
    (h : patchFile insertions path tree = (.ok outcomes, after)) :
    ∃ content patched,
      tree.readText path = .ok content ∧
        Insertion.patchAll path insertions content = .ok (patched, outcomes) ∧
        after.readText path = .ok patched := by
  rcases patchFile_cases h with ⟨-, e, he⟩ |
    ⟨content, patched, _, location, hok, hres, hnode, hpatch, rfl⟩
  · cases he
  · cases hok
    have hroot := ne_nil_of_file hnode
    have hrefills : Refills (fun _ => True) tree (tree.place location (.file (.text patched))) :=
      refills_place_file (by simp [hnode]) trivial
    exact ⟨content, patched, readText_eq_ok_iff.mpr ⟨location, hres, hnode⟩, hpatch,
      readText_eq_ok_iff.mpr ⟨location, hrefills.resolve_ok_iff.mpr hres, by simp [hroot]⟩⟩

/-! ## Settled files -/

/-- All insertions are settled in a file. -/
def SettledIn (insertions : List Insertion) (path : Path) (tree : FileTree) : Prop :=
  ∃ content, tree.readText path = .ok content ∧
    ∀ insertion ∈ insertions, insertion.Settled content

/-- Patching a settled file changes nothing. -/
theorem patchFile_of_settledIn
    (h : SettledIn insertions path tree) :
    ∃ outcomes, patchFile insertions path tree = (.ok outcomes, tree) ∧
      ∀ outcome ∈ outcomes, outcome.patch.isInserted = false := by
  obtain ⟨content, hread, hsettled⟩ := h
  obtain ⟨outcomes, hpatch, hquiet⟩ := Insertion.patchAll_of_settled path hsettled
  refine ⟨outcomes, ?_, hquiet⟩
  simp [patchFile, hread, hpatch]

/-- Patching a file settles it. -/
theorem settledIn_patchFile
    (hkeyed : ∀ insertion ∈ insertions, insertion.keyLines ≠ [])
    (houtlasts : insertions.Pairwise Insertion.Outlasts)
    {outcomes : List PatchOutcome}
    (h : patchFile insertions path tree = (.ok outcomes, after)) :
    SettledIn insertions path after := by
  obtain ⟨content, patched, -, hpatch, hread⟩ := reads_patchFile h
  exact ⟨patched, hread, Insertion.patchAll_settles hkeyed houtlasts hpatch⟩

/-- A text in which all is settled stays as it is. -/
theorem keeps_settled
    (insertions : List Insertion) :
    Keeps insertions fun content => ∀ insertion ∈ insertions, insertion.Settled content := by
  intro path content patched outcomes hpatch hsettled
  obtain ⟨_, hsame, -⟩ := Insertion.patchAll_of_settled path hsettled
  rw [hsame] at hpatch
  cases hpatch
  exact hsettled

/-! ## All files -/

theorem patchFiles_cons
    (insertions : List Insertion)
    (path : Path)
    (rest : List Path)
    (tree : FileTree) :
    patchFiles insertions (path :: rest) tree =
      match patchFile insertions path tree with
      | (.error e, after) => (.error e, after)
      | (.ok outcomes, after) =>
        match patchFiles insertions rest after with
        | (.error e, last) => (.error e, last)
        | (.ok more, last) => (.ok (outcomes ++ more), last) := by
  simp only [patchFiles]
  rcases hfirst : patchFile insertions path tree with ⟨e | outcomes, after⟩
  · rw [bind_error hfirst]
  · rw [bind_ok hfirst]
    simp only
    rcases hrest : patchFiles insertions rest after with ⟨e | more, last⟩
    · rw [bind_error hrest]
    · rw [bind_ok hrest, pure_apply]

theorem patchFiles_cons_eq_ok_iff
    {rest : List Path}
    {outcomes : List PatchOutcome} :
    patchFiles insertions (path :: rest) tree = (.ok outcomes, after) ↔
      ∃ first middle more,
        patchFile insertions path tree = (.ok first, middle) ∧
          patchFiles insertions rest middle = (.ok more, after) ∧
          outcomes = first ++ more := by
  rw [patchFiles_cons]
  constructor
  · intro h
    split at h
    · cases h
    · next first middle hfirst =>
        split at h
        · cases h
        · next more last hrest =>
            cases h
            exact ⟨first, middle, more, hfirst, hrest, rfl⟩
  · rintro ⟨first, middle, more, hfirst, hrest, rfl⟩
    rw [hfirst]
    simp only [hrest]

theorem patchFiles_append
    {outcomes : List PatchOutcome}
    (rest : List Path)
    (h : patchFiles insertions paths tree = (.ok outcomes, middle)) :
    patchFiles insertions (paths ++ rest) tree =
      match patchFiles insertions rest middle with
      | (.error e, last) => (.error e, last)
      | (.ok more, last) => (.ok (outcomes ++ more), last) := by
  induction paths generalizing tree outcomes with
  | nil =>
      cases h
      rw [List.nil_append]
      rcases patchFiles insertions rest middle with ⟨_ | _, _⟩
      · rfl
      · simp
  | cons path paths ih =>
      rw [List.cons_append, patchFiles_cons]
      rw [patchFiles_cons] at h
      rcases hfirst : patchFile insertions path tree with ⟨e | first, after⟩
      · rw [hfirst] at h
        cases h
      · rw [hfirst] at h
        simp only at h ⊢
        rcases hmore : patchFiles insertions paths after with ⟨e | more, last⟩
        · rw [hmore] at h
          cases h
        · rw [hmore] at h
          cases h
          rw [ih hmore]
          rcases patchFiles insertions rest middle with ⟨_ | _, _⟩
          · rfl
          · simp

theorem patch_of_candidates
    (insertions : List Insertion)
    (tree : FileTree)
    (target : Path) :
    patch target insertions tree =
      match candidates tree target with
      | .error e => (.error e, tree)
      | .ok paths => patchFiles insertions paths tree := by
  unfold patch
  cases hcandidates : candidates tree target with
  | error e =>
      rw [bind_error (show viewE (fun tree => candidates tree target) tree = (.error e, tree) by
        rw [viewE, hcandidates])]
  | ok paths =>
      rw [bind_ok (show viewE (fun tree => candidates tree target) tree = (.ok paths, tree) by
        rw [viewE, hcandidates])]

/-- What patching one file keeps true of a tree, patching files keeps true. -/
theorem patchFiles_keeps
    {Q : FileTree → Prop}
    (hstep : ∀ path ∈ paths, ∀ tree, Q tree → Q (patchFile insertions path tree).2)
    (h : Q tree) :
    Q (patchFiles insertions paths tree).2 := by
  induction paths generalizing tree with
  | nil => exact h
  | cons path rest ih =>
      obtain ⟨hpath, hothers⟩ := List.forall_mem_cons.mp hstep
      have hfirst := hpath tree h
      rw [patchFiles_cons]
      rcases hpatch : patchFile insertions path tree with ⟨e | outcomes, middle⟩
      · rw [hpatch] at hfirst
        exact hfirst
      · rw [hpatch] at hfirst
        have hrest := ih hothers hfirst
        simp only
        rcases hfiles : patchFiles insertions rest middle with ⟨e | more, last⟩
        · rw [hfiles] at hrest
          exact hrest
        · rw [hfiles] at hrest
          exact hrest

/-- A file keeps a property that its text keeps. -/
theorem Reads.patchFiles
    (hkeeps : Keeps insertions P)
    (h : Reads P path tree)
    (paths : List Path) :
    Reads P path (patchFiles insertions paths tree).2 :=
  patchFiles_keeps (fun other _ _ hreads => hreads.patchFile hkeeps other) h

/-- Patched files read as texts with a property that patching gives. -/
theorem reads_patchFiles
    (hgives : ∀ path content patched outcomes,
      Insertion.patchAll path insertions content = .ok (patched, outcomes) → P patched)
    {outcomes : List PatchOutcome}
    (h : patchFiles insertions paths tree = (.ok outcomes, after)) :
    ∀ path ∈ paths, Reads P path after := by
  have hkeeps : Keeps insertions P :=
    fun path content patched outcomes hpatch _ => hgives path content patched outcomes hpatch
  induction paths generalizing tree outcomes with
  | nil => simp
  | cons path rest ih =>
      obtain ⟨first, middle, more, hfirst, hrest, -⟩ := patchFiles_cons_eq_ok_iff.mp h
      obtain ⟨content, patched, -, hpatch, hread⟩ := reads_patchFile hfirst
      have hmiddle : Reads P path middle := ⟨patched, hread, hgives _ _ _ _ hpatch⟩
      intro other hother
      rcases List.mem_cons.mp hother with rfl | hother
      · have hafter := hmiddle.patchFiles hkeeps rest
        rw [hrest] at hafter
        exact hafter
      · exact ih hrest other hother

/-- A settled file stays settled when files are patched. -/
theorem SettledIn.patchFiles
    (hsettled : SettledIn insertions path tree)
    {result : Except WireError (List PatchOutcome)}
    (h : patchFiles insertions paths tree = (result, after)) :
    SettledIn insertions path after := by
  have hafter := Reads.patchFiles (keeps_settled insertions) hsettled paths
  rw [h] at hafter
  exact hafter

/-- Files that are settled, up to one that cannot be patched. -/
def Quiet (insertions : List Insertion) (tree : FileTree) : List Path → Prop
  | [] => True
  | path :: rest =>
      (∃ e, patchFile insertions path tree = (.error e, tree)) ∨
        (SettledIn insertions path tree ∧ Quiet insertions tree rest)

/-- After files were patched, they are settled, up to one that cannot be patched. -/
theorem quiet_patchFiles
    (hbatch : Insertion.IsBatch insertions)
    {result : Except WireError (List PatchOutcome)}
    (h : patchFiles insertions paths tree = (result, after)) :
    Quiet insertions after paths := by
  induction paths generalizing tree result with
  | nil => trivial
  | cons path rest ih =>
      rw [patchFiles_cons] at h
      split at h
      · next e last hfirst =>
          cases h
          left
          rcases patchFile_cases hfirst with ⟨rfl, -⟩ | ⟨_, _, _, _, hok, -⟩
          · exact ⟨e, hfirst⟩
          · cases hok
      · next outcomes middle hfirst =>
          have hsettled := settledIn_patchFile hbatch.keyed hbatch.outlasts hfirst
          right
          split at h
          · next hrest =>
              cases h
              exact ⟨hsettled.patchFiles hrest, ih hrest⟩
          · next hrest =>
              cases h
              exact ⟨hsettled.patchFiles hrest, ih hrest⟩

theorem Quiet.of_append
    {rest : List Path}
    (h : Quiet insertions tree (paths ++ rest)) :
    Quiet insertions tree paths := by
  induction paths with
  | nil => trivial
  | cons path paths ih => exact h.imp_right fun ⟨hsettled, hrest⟩ => ⟨hsettled, ih hrest⟩

/-- Patching such files changes nothing and inserts nothing. -/
theorem patchFiles_of_quiet
    (h : Quiet insertions tree paths) :
    (patchFiles insertions paths tree).2 = tree ∧
      ∀ outcomes, (patchFiles insertions paths tree).1 = .ok outcomes →
        ∀ outcome ∈ outcomes, outcome.patch.isInserted = false := by
  induction paths with
  | nil =>
      refine ⟨rfl, fun outcomes houtcomes => ?_⟩
      cases houtcomes
      simp
  | cons path rest ih =>
      rw [patchFiles_cons]
      rcases h with ⟨e, hfail⟩ | ⟨hsettled, hrest⟩
      · rw [hfail]
        exact ⟨rfl, fun _ hok => by cases hok⟩
      · obtain ⟨outcomes, hfirst, hquiet⟩ := patchFile_of_settledIn hsettled
        obtain ⟨htree, hmore⟩ := ih hrest
        rw [hfirst]
        simp only
        rcases hfiles : patchFiles insertions rest tree with ⟨e | more, last⟩
        · rw [hfiles] at htree
          exact ⟨htree, fun _ hok => by cases hok⟩
        · rw [hfiles] at htree hmore
          refine ⟨htree, fun all hall outcome houtcome => ?_⟩
          cases hall
          rcases List.mem_append.mp houtcome with hin | hin
          · exact hquiet outcome hin
          · exact hmore more rfl outcome hin

/-- Patching the candidates when they are such files changes nothing and inserts nothing. -/
theorem patch_of_quiet
    (h : ∀ paths, candidates tree target = .ok paths → Quiet insertions tree paths)
    {result : Except WireError (List PatchOutcome)}
    (hpatch : patch target insertions tree = (result, after)) :
    after = tree ∧
      ∀ outcomes, result = .ok outcomes →
        ∀ outcome ∈ outcomes, outcome.patch.isInserted = false := by
  rw [patch_of_candidates] at hpatch
  split at hpatch
  · cases hpatch
    exact ⟨rfl, fun _ hok => by cases hok⟩
  · next paths hcandidates =>
      have hquiet := patchFiles_of_quiet (h paths hcandidates)
      rw [hpatch] at hquiet
      exact hquiet

/-- Patching files writes them, and only what was there. -/
theorem refills_patchFiles_of
    {writes : Location → Prop}
    (hwrites : ∀ path ∈ paths, ∀ location, tree.resolve path = .ok location → writes location) :
    Refills writes tree (patchFiles insertions paths tree).2 ∧
      (patchFiles insertions paths tree).2.outline = tree.outline := by
  refine patchFiles_keeps (Q := fun seen => Refills writes tree seen ∧ seen.outline = tree.outline)
    ?_ ⟨Refills.refl _ _, rfl⟩
  rintro path hpath seen ⟨hrefills, houtline⟩
  obtain ⟨hfirst, hsame⟩ := refills_patchFile fun location hlocation =>
    hwrites path hpath location (hrefills.resolve_ok_iff.mp hlocation)
  exact ⟨hrefills.trans hfirst, hsame.trans houtline⟩

/-- Patching files of a directory writes below that directory. -/
theorem refills_patchFiles
    {base : Path}
    (hheld : Holds tree base location)
    (hpaths : ∀ path ∈ paths, ∃ name, Path.IsName name ∧ path = base.child name) :
    Refills (fun place => ∃ name, Path.IsName name ∧ place = location ++ [name]) tree
        (patchFiles insertions paths tree).2 ∧
      (patchFiles insertions paths tree).2.outline = tree.outline := by
  refine refills_patchFiles_of fun path hpath place hplace => ?_
  obtain ⟨name, hname, rfl⟩ := hpaths path hpath
  exact ⟨name, hname, hheld.eq_of_resolve_child hname hplace⟩

end Providers
end GormForge
