import GormForge.Proofs.FileTree.Growth

/-!
# Filling a directory

A directory into which files are put, some of them so far.

**Input.**  `wanted` gives the text that goes under a name, or nothing for a file that is
left alone; `done` are the names that were treated so far.

**Results.**
* `Filled.place`, `Filled.skip`: what treating one more name does.
* `Filled.grows`: a tree that is filled further has grown.
* `Filled.get?_eq`: the names that were treated determine the tree, whatever their order.
-/

namespace GormForge
namespace FileTree

variable {ground tree other : FileTree}
variable {location : Location}
variable {wanted : String → Option String}
variable {done more : String → Prop}

/-- A tree in which the files under some names are as wanted and all else is as it was. -/
structure Filled (ground : FileTree) (location : Location) (wanted : String → Option String)
    (done : String → Prop) (tree : FileTree) : Prop where
  cwd : tree.cwd = ground.cwd
  written : ∀ {name text}, done name → wanted name = some text →
    tree.get? (location ++ [name]) = some (.file (.text text))
  kept : ∀ {place}, (∀ name, done name → wanted name ≠ none → place ≠ location ++ [name]) →
    tree.get? place = ground.get? place

theorem filled_ground
    (ground : FileTree)
    (location : Location)
    (wanted : String → Option String)
    (hdone : ∀ name, ¬ done name) :
    Filled ground location wanted done ground where
  cwd := rfl
  written h := absurd h (hdone _)
  kept _ := rfl

theorem Filled.congr
    (h : Filled ground location wanted done tree)
    (hsame : ∀ name, done name ↔ more name) :
    Filled ground location wanted more tree where
  cwd := h.cwd
  written hmore := h.written ((hsame _).mpr hmore)
  kept hplace := h.kept fun name hdone => hplace name ((hsame _).mp hdone)

/-- A name that was not treated holds what it held. -/
theorem Filled.get?_of_not_done
    (h : Filled ground location wanted done tree)
    {name : String}
    (hnot : ¬ done name) :
    tree.get? (location ++ [name]) = ground.get? (location ++ [name]) := by
  apply h.kept
  intro other hdone _ heq
  obtain rfl : name = other := by simpa using heq
  exact hnot hdone

theorem Filled.place
    {name text : String}
    (h : Filled ground location wanted done tree)
    (hwanted : wanted name = some text) :
    Filled ground location wanted (fun other => done other ∨ other = name)
      (tree.place (location ++ [name]) (.file (.text text))) where
  cwd := h.cwd
  written {other content} hdone hother := by
    rw [get?_place]
    split
    · next heq =>
        obtain rfl : name = other := by simpa using heq.1
        rw [hwanted] at hother
        cases hother
        rfl
    · next hne =>
        rcases hdone with hdone | rfl
        · exact h.written hdone hother
        · simp at hne
  kept {place} hplace := by
    rw [get?_place, if_neg]
    · exact h.kept fun other hdone => hplace other (Or.inl hdone)
    · rintro ⟨rfl, -⟩
      exact hplace name (Or.inr rfl) (by simp [hwanted]) rfl

theorem Filled.skip
    {name : String}
    (h : Filled ground location wanted done tree)
    (hwanted : wanted name = none) :
    Filled ground location wanted (fun other => done other ∨ other = name) tree where
  cwd := h.cwd
  written hdone hother := by
    rcases hdone with hdone | rfl
    · exact h.written hdone hother
    · rw [hwanted] at hother
      cases hother
  kept hplace := h.kept fun other hdone => hplace other (Or.inl hdone)

/-- A tree that is filled further has grown. -/
theorem Filled.grows
    {writes : Location → Prop}
    (h : Filled ground location wanted done tree)
    (hmore : Filled ground location wanted more other)
    (hsub : ∀ name, done name → more name)
    (hfree : ∀ name, more name → wanted name ≠ none →
      ground.get? (location ++ [name]) ≠ some .directory)
    (hwrites : ∀ name, more name → writes (location ++ [name])) :
    Grows writes tree other := by
  have hplaces : ∀ place,
      (∃ name text, more name ∧ wanted name = some text ∧ place = location ++ [name]) ∨
        (other.get? place = ground.get? place ∧ tree.get? place = ground.get? place) := by
    intro place
    by_cases hplace : ∃ name text, more name ∧ wanted name = some text ∧
        place = location ++ [name]
    · exact Or.inl hplace
    · have hno : ∀ name, more name → wanted name ≠ none → place ≠ location ++ [name] := by
        intro name hname hsome heq
        obtain ⟨text, htext⟩ := Option.ne_none_iff_exists'.mp hsome
        exact hplace ⟨name, text, hname, htext, heq⟩
      exact Or.inr ⟨hmore.kept hno, h.kept fun name hdone => hno name (hsub name hdone)⟩
  -- below the names, there are files in the larger tree and no directories in the smaller one
  have hnames : ∀ name text, more name → wanted name = some text →
      other.get? (location ++ [name]) = some (.file (.text text)) ∧
        tree.get? (location ++ [name]) ≠ some .directory := by
    intro name text hname htext
    refine ⟨hmore.written hname htext, ?_⟩
    by_cases hdone : done name
    · rw [h.written hdone htext]
      simp
    · rw [h.get?_of_not_done hdone]
      exact hfree name hname (by simp [htext])
  refine ⟨hmore.cwd.trans h.cwd.symm, ?_, ?_, ?_⟩
  · intro place hdir
    rcases hplaces place with ⟨name, text, hname, htext, rfl⟩ | ⟨hother, htree⟩
    · exact absurd hdir (hnames name text hname htext).2
    · rw [hother, ← htree, hdir]
  · intro place content hfile
    rcases hplaces place with ⟨name, text, hname, htext, rfl⟩ | ⟨hother, htree⟩
    · exact ⟨_, (hnames name text hname htext).1⟩
    · exact ⟨content, by rw [hother, ← htree, hfile]⟩
  · intro place hnot
    rcases hplaces place with ⟨name, text, hname, htext, rfl⟩ | ⟨hother, htree⟩
    · exact absurd (hwrites name hname) hnot
    · exact Or.inl (hother.trans htree.symm)

/-- The names that were treated determine the nodes of the tree. -/
theorem Filled.get?_eq
    (h : Filled ground location wanted done tree)
    (hother : Filled ground location wanted done other)
    (place : Location) :
    tree.get? place = other.get? place := by
  by_cases hplace : ∃ name text, done name ∧ wanted name = some text ∧ place = location ++ [name]
  · obtain ⟨name, text, hdone, htext, rfl⟩ := hplace
    rw [h.written hdone htext, hother.written hdone htext]
  · have hno : ∀ name, done name → wanted name ≠ none → place ≠ location ++ [name] := by
      intro name hdone hsome heq
      obtain ⟨text, htext⟩ := Option.ne_none_iff_exists'.mp hsome
      exact hplace ⟨name, text, hdone, htext, heq⟩
    rw [h.kept hno, hother.kept hno]

end FileTree
end GormForge
