import GormForge.Proofs.FileTree.Contents
import GormForge.Proofs.FileTree.Nested
import GormForge.Proofs.Wiring.Providers

/-!
# The entry of one constructor

Patching one insertion into the files that lie next to a new file.

**Input.**  A file in a directory of a project, and an insertion with a line that is not blank.

**Algorithm.**  The new file is itself among the files that are patched.  It gets the entry at
most once, since an entry that is there is not made again.

**Results.**
* `refills_patch`: only files of the directory are written.
* `entersFile_patch`, `entersAt_patch`: a file holds what it held, or that with the entry in it,
  whether it is given by a path or by its location.
-/

namespace GormForge

/-! ## Contents -/

namespace Insertion

variable {insertion : Insertion}
variable {path : Path}
variable {text content patched : String}
variable {patch : Patch}

/-- A content is a text, or that text with the insertion in it. -/
def Enters (insertion : Insertion) (text content : String) : Prop :=
  content = text ∨
    ∃ path line, insertion.patchContent path text = .ok (content, .inserted line)

/-- A patch makes an entry at most once. -/
theorem Enters.patchContent
    (hkey : insertion.keyLines ≠ [])
    (h : insertion.Enters text content)
    (hpatch : insertion.patchContent path content = .ok (patched, patch)) :
    insertion.Enters text patched := by
  rcases h with rfl | ⟨first, line, hinserted⟩
  · rcases patchContent_cases hpatch with ⟨-, rfl, -⟩ | ⟨-, rfl, -⟩ | ⟨front, _, _, -, -, -, rfl⟩
    · exact Or.inl rfl
    · exact Or.inl rfl
    · exact Or.inr ⟨path, front.length + 1, hpatch⟩
  · -- the entry is there already, so that nothing changes any more
    obtain ⟨_, hsame, -⟩ := patchContent_of_settled path (settled_patchContent hkey hinserted)
    rw [hsame] at hpatch
    cases hpatch
    exact Or.inr ⟨first, line, hinserted⟩

end Insertion

/-! ## Files -/

namespace Providers

open FileTree

variable {insertion : Insertion}
variable {insertions : List Insertion}
variable {before tree after : FileTree}
variable {location place : Location}
variable {base path other : Path}
variable {paths : List Path}
variable {name file : String}
variable {text : String}

theorem directoryOf_child_child
    (base : Path)
    (hname : Path.IsName name)
    (hfile : Path.IsName file) :
    directoryOf ((base.child name).child file) = base.child name := by
  unfold directoryOf
  rw [Path.parent?_child_eq hfile, Path.above_child base hname]
  simp [Path.isEmpty_text_child hname]

/-- Patching the files next to a target writes files of its directory only. -/
theorem refills_patch_of_destination
    {target : Path}
    {result : Except WireError (List PatchOutcome)}
    (hproper : Proper tree)
    (hdest : tree.destination (directoryOf target) = .ok location)
    (h : patch target insertions tree = (result, after)) :
    Refills (fun place => ∃ name, Path.IsName name ∧ place = location ++ [name]) tree after := by
  rw [patch_of_candidates] at h
  split at h
  · cases h
    exact Refills.refl _ _
  · next paths hcandidates =>
      obtain ⟨found, hfound, hheld⟩ := exists_holds_of_candidates hcandidates
      rw [hdest] at hfound
      cases hfound
      have hrefills : Refills _ tree (patchFiles insertions paths tree).2 :=
        (refills_patchFiles hheld fun _ => exists_name_of_mem_candidates hproper hcandidates).1
      rw [h] at hrefills
      exact hrefills

/-- Patching the files next to a file of a directory writes files of that directory only. -/
theorem refills_patch
    {result : Except WireError (List PatchOutcome)}
    (hproper : Proper tree)
    (hheld : Holds tree (base.child name) location)
    (hname : Path.IsName name)
    (hfile : Path.IsName file)
    (h : patch ((base.child name).child file) insertions tree = (result, after)) :
    Refills (fun place => ∃ name, Path.IsName name ∧ place = location ++ [name]) tree after := by
  refine refills_patch_of_destination hproper ?_ h
  rw [directoryOf_child_child base hname hfile]
  exact hheld.destination

/-- A file holds a text, or that text with the insertion in it. -/
def EntersFile (insertion : Insertion) (text : String) (path : Path) (tree : FileTree) : Prop :=
  ∃ content, tree.readText path = .ok content ∧ insertion.Enters text content

theorem keeps_enters
    (hkey : insertion.keyLines ≠ [])
    (text : String) :
    Keeps [insertion] (insertion.Enters text) := by
  intro path content patched outcomes hall henters
  simp only [Insertion.patchAll] at hall
  split at hall
  · cases hall
  · next hone =>
      cases hall
      exact henters.patchContent hkey hone

/-- A file holds what it held before an insertion was patched in, or that with the insertion
in it. -/
theorem entersFile_patch
    {target : Path}
    {result : Except WireError (List PatchOutcome)}
    (hkey : insertion.keyLines ≠ [])
    (hread : tree.readText path = .ok text)
    (h : patch target [insertion] tree = (result, after)) :
    EntersFile insertion text path after := by
  have hbefore : EntersFile insertion text path tree := ⟨text, hread, Or.inl rfl⟩
  rw [patch_of_candidates] at h
  split at h
  · cases h
    exact hbefore
  · next paths _ =>
      have hafter := Reads.patchFiles (keeps_enters hkey text) hbefore paths
      rw [h] at hafter
      exact hafter

/-! ## Locations -/

/-- The file at a location holds what it held, or that with the insertion in it. -/
def EntersAt (insertion : Insertion) (place : Location) (before after : FileTree) : Prop :=
  after.content? place = before.content? place ∨
    ∃ text content path line,
      before.content? place = some (.text text) ∧
        after.content? place = some (.text content) ∧
        insertion.patchContent path text = .ok (content, .inserted line)

theorem EntersAt.refl
    (insertion : Insertion)
    (place : Location)
    (tree : FileTree) :
    EntersAt insertion place tree tree :=
  Or.inl rfl

/-- What is entered at a location depends on the contents there only. -/
theorem EntersAt.congr
    {first last : FileTree}
    (h : EntersAt insertion place before after)
    (hbefore : first.content? place = before.content? place)
    (hafter : last.content? place = after.content? place) :
    EntersAt insertion place first last := by
  unfold EntersAt
  rw [hbefore, hafter]
  exact h

theorem entersAt_of_enters
    {content : String}
    (hbefore : tree.content? place = some (.text text))
    (hafter : after.content? place = some (.text content))
    (h : insertion.Enters text content) :
    EntersAt insertion place tree after := by
  rcases h with rfl | ⟨path, line, hinserted⟩
  · exact Or.inl (hafter.trans hbefore.symm)
  · exact Or.inr ⟨text, content, path, line, hbefore, hafter, hinserted⟩

/-- A text that was there comes from one that was there before. -/
theorem EntersAt.exists_enters
    {content : String}
    (h : EntersAt insertion place tree after)
    (hafter : after.content? place = some (.text content)) :
    ∃ text, tree.content? place = some (.text text) ∧ insertion.Enters text content := by
  rcases h with hsame | ⟨text, other, path, line, hbefore, hother, hinserted⟩
  · exact ⟨content, hsame.symm.trans hafter, Or.inl rfl⟩
  · rw [hafter] at hother
    cases hother
    exact ⟨text, hbefore, Or.inr ⟨path, line, hinserted⟩⟩

/-- Patching one more file enters nothing twice. -/
theorem EntersAt.patchFile
    (hkey : insertion.keyLines ≠ [])
    (h : EntersAt insertion place before tree)
    (path : Path) :
    EntersAt insertion place before (patchFile [insertion] path tree).2 := by
  rcases hpatch : Providers.patchFile [insertion] path tree with ⟨result, after⟩
  rcases patchFile_cases hpatch with ⟨rfl, -⟩ |
    ⟨content, patched, outcomes, location, -, -, hnode, hall, rfl⟩
  · exact h
  · have hplaced : (tree.place location (.file (.text patched))).content? place =
        if location = place then some (.text patched) else tree.content? place :=
      content?_place (ne_nil_of_file hnode)
    by_cases hsame : location = place
    · subst hsame
      obtain ⟨text, hbefore, henters⟩ := h.exists_enters (content?_eq_some_iff.mpr hnode)
      rw [if_pos rfl] at hplaced
      exact entersAt_of_enters hbefore hplaced
        (keeps_enters hkey text path content patched outcomes hall henters)
    · rw [if_neg hsame] at hplaced
      exact h.congr rfl hplaced

/-- Every file holds what it held before an insertion was patched in, or that with the insertion
in it. -/
theorem entersAt_patch
    {target : Path}
    {result : Except WireError (List PatchOutcome)}
    (hkey : insertion.keyLines ≠ [])
    (h : patch target [insertion] tree = (result, after))
    (place : Location) :
    EntersAt insertion place tree after := by
  rw [patch_of_candidates] at h
  split at h
  · cases h
    exact EntersAt.refl insertion place _
  · next paths _ =>
      have hafter : EntersAt insertion place tree (patchFiles [insertion] paths tree).2 :=
        patchFiles_keeps (fun path _ _ henters => henters.patchFile hkey path)
          (EntersAt.refl insertion place tree)
      rw [h] at hafter
      exact hafter

end Providers
end GormForge
