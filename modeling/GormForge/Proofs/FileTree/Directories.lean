import GormForge.Proofs.FileTree.Growth
import Mathlib.Data.List.TakeWhile

/-!
# Making directories and writing files

What the actions on a tree change, and that directories are made once.

**Results.**
* `makeDirectory_eq_ok_iff`, `write_eq_ok_iff`: the location that an action changes.
* `grows_makeDirectories`: making directories writes no file.
* `createDirectories_again`: directories that were made once need not be made again.
-/

namespace GormForge
namespace FileTree

section Trailing

variable {writes : Location → Prop}
variable {tree made later after : FileTree}
variable {location start : Location}
variable {p : Path}

/-- Only empty segments come after the ones that count. -/
theorem exists_withoutTrailing
    (parts : List (List Char)) :
    ∃ n, parts = withoutTrailing parts ++ List.replicate n [] := by
  refine ⟨(parts.reverse.takeWhile (· == [])).length, ?_⟩
  have hempty : parts.reverse.takeWhile (· == []) =
      List.replicate (parts.reverse.takeWhile (· == [])).length [] := by
    apply List.eq_replicate_of_mem
    intro part hpart
    simpa using List.mem_takeWhile_imp hpart
  calc
    parts = parts.reverse.reverse := by rw [List.reverse_reverse]
    _ = (parts.reverse.takeWhile (· == []) ++ parts.reverse.dropWhile (· == [])).reverse := by
      rw [List.takeWhile_append_dropWhile]
    _ = withoutTrailing parts ++ (parts.reverse.takeWhile (· == [])).reverse := by
      rw [List.reverse_append, withoutTrailing]
    _ = _ := by
      rw [hempty, List.reverse_replicate, List.length_replicate]

theorem walk_replicate
    (hdir : tree.get? location = some .directory)
    (n : Nat) :
    tree.walk location (List.replicate n []) = .ok location := by
  induction n with
  | zero => rfl
  | succ n ih =>
      simp only [List.replicate_succ, walk, requireDirectory, hdir]
      exact ih

theorem eq_of_walk_replicate
    {n : Nat}
    (h : tree.walk start (List.replicate n []) = .ok location) :
    start = location := by
  induction n with
  | zero =>
      cases h
      rfl
  | succ n ih =>
      simp only [List.replicate_succ, walk] at h
      split at h
      · cases h
      · exact ih h

/-- A new directory takes the location that its path names from then on. -/
theorem resolve_of_resolveNew
    (hnew : tree.resolveNew p = .ok location)
    (hdir : tree.get? location = some .directory) :
    tree.resolve p = .ok location := by
  unfold resolveNew at hnew
  split at hnew
  · cases hnew
  · next hcheck =>
      obtain ⟨n, hparts⟩ := exists_withoutTrailing p.segments
      simp only [resolve, hcheck]
      rw [hparts, walk_append, hnew]
      exact walk_replicate hdir n

theorem resolveNew_of_resolve
    (hres : tree.resolve p = .ok location) :
    tree.resolveNew p = .ok location := by
  unfold resolve at hres
  split at hres
  · cases hres
  · next hcheck =>
      obtain ⟨n, hparts⟩ := exists_withoutTrailing p.segments
      simp only [resolveNew, hcheck]
      rw [hparts, walk_append] at hres
      split at hres
      · cases hres
      · next middle hmiddle =>
          rw [hmiddle, eq_of_walk_replicate hres]

theorem Grows.resolveNew_ok
    (h : Grows writes tree later)
    (hnew : tree.resolveNew p = .ok location) :
    later.resolveNew p = .ok location := by
  unfold resolveNew at hnew ⊢
  split at hnew
  · cases hnew
  · next hcheck =>
      rw [h.startOf]
      rcases h.walk (tree.startOf p) (withoutTrailing p.segments) with hmiss | heq
      · rw [hmiss] at hnew
        cases hnew
      · rw [heq, hnew]

end Trailing

/-! ## Directories -/

section Directories

variable {writes : Location → Prop}
variable {tree made later after : FileTree}
variable {location : Location}
variable {p : Path}
variable {above : List Path}

theorem makeDirectory_eq_ok_iff :
    tree.makeDirectory p = .ok made ↔
      ∃ location, tree.resolveNew p = .ok location ∧ tree.get? location = none ∧
        made = tree.place location .directory := by
  unfold makeDirectory
  cases tree.resolveNew p with
  | error e => simp
  | ok location =>
      cases hnode : tree.get? location with
      | some node => simp [hnode]
      | none => simp [hnode, eq_comm]

theorem grows_makeDirectory
    (writes : Location → Prop)
    (h : tree.makeDirectory p = .ok made) :
    Grows writes tree made := by
  obtain ⟨location, -, hnone, rfl⟩ := makeDirectory_eq_ok_iff.mp h
  exact grows_place_directory hnone

theorem isDirectory_of_makeDirectory
    (h : tree.makeDirectory p = .ok made) :
    made.isDirectory p = true := by
  have hgrows := grows_makeDirectory (fun _ => False) h
  obtain ⟨location, hnew, hnone, rfl⟩ := makeDirectory_eq_ok_iff.mp h
  have hroot : location ≠ [] := by
    rintro rfl
    simp [get?] at hnone
  have hdir : (tree.place location .directory).get? location = some .directory := by
    simp [hroot]
  exact isDirectory_iff.mpr
    ⟨location, resolve_of_resolveNew (hgrows.resolveNew_ok hnew) hdir, hdir⟩

/-- A directory is not made where it is. -/
theorem makeDirectory_of_isDirectory
    (h : tree.isDirectory p = true) :
    tree.makeDirectory p = .error .alreadyExists := by
  obtain ⟨location, hres, hnode⟩ := isDirectory_iff.mp h
  simp [makeDirectory, resolveNew_of_resolve hres, hnode]

theorem grows_settle
    (writes : Location → Prop)
    (tree : FileTree)
    (p : Path) :
    Grows writes tree (makeDirectories.settle tree p).2 := by
  unfold makeDirectories.settle
  split
  · next hmade => exact grows_makeDirectory writes hmade
  · split <;> exact Grows.refl _ _

/-- Making directories grows a tree and writes no file. -/
theorem grows_makeDirectories
    (writes : Location → Prop)
    (tree : FileTree)
    (paths : List Path) :
    Grows writes tree (tree.makeDirectories paths).2 := by
  induction paths with
  | nil => exact Grows.refl _ _
  | cons p above ih =>
      unfold makeDirectories
      split
      · exact Grows.refl _ _
      · split
        · next hmade => exact grows_makeDirectory writes hmade
        · split
          · next hfail =>
              rw [hfail] at ih
              exact ih
          · next hmade =>
              rw [hmade] at ih
              exact ih.trans (grows_settle writes _ p)
        · split <;> exact Grows.refl _ _

theorem isDirectory_of_settle
    (h : makeDirectories.settle tree p = (.ok (), made)) :
    made.isDirectory p = true := by
  unfold makeDirectories.settle at h
  split at h
  · next hmade =>
      cases h
      exact isDirectory_of_makeDirectory hmade
  · split at h
    · next hdir =>
        cases h
        exact hdir
    · cases h

/-- Directories that could be made are there. -/
theorem isDirectory_of_makeDirectories
    (h : tree.makeDirectories (p :: above) = (.ok (), made))
    (hp : p.text.isEmpty = false) :
    made.isDirectory p = true := by
  unfold makeDirectories at h
  rw [if_neg (by simp [hp])] at h
  split at h
  · next hmade =>
      cases h
      exact isDirectory_of_makeDirectory hmade
  · split at h
    · cases h
    · exact isDirectory_of_settle h
  · split at h
    · next hdir =>
        cases h
        exact hdir
    · cases h

theorem makeDirectories_of_isDirectory
    (h : tree.isDirectory p = true) :
    tree.makeDirectories (p :: above) = (.ok (), tree) := by
  unfold makeDirectories
  split
  · rfl
  · simp [makeDirectory_of_isDirectory h]

theorem grows_createDirectories
    (writes : Location → Prop)
    (tree : FileTree)
    (p : Path) :
    Grows writes tree (createDirectories p tree).2 :=
  grows_makeDirectories writes tree (p :: p.parents)

/-- Directories that were made once need not be made again. -/
theorem createDirectories_again
    (h : createDirectories p tree = (.ok (), made))
    (hgrows : Grows writes made later) :
    createDirectories p later = (.ok (), later) := by
  unfold createDirectories at h ⊢
  by_cases hp : p.text.isEmpty
  · simp [makeDirectories, hp]
  · have hdir := isDirectory_of_makeDirectories h (by simpa using hp)
    exact makeDirectories_of_isDirectory (hgrows.isDirectory hdir)

end Directories

/-! ## Actions -/

section Actions

variable {ε ε' α β : Type}
variable {writes : Location → Prop}
variable {tree : FileTree}

theorem grows_of_eq
    {action : FileAction ε α}
    {result : Except ε α}
    {after : FileTree}
    (h : action tree = (result, after))
    (hgrows : Grows writes tree (action tree).2) :
    Grows writes tree after := by
  rw [h] at hgrows
  exact hgrows

theorem grows_bind
    {action : FileAction ε α}
    {next : α → FileAction ε β}
    (hfirst : Grows writes tree (action tree).2)
    (hnext : ∀ a later, action tree = (.ok a, later) → Grows writes later (next a later).2) :
    Grows writes tree ((action >>= next) tree).2 := by
  rcases h : action tree with ⟨e | a, later⟩
  · rw [bind_error h]
    exact grows_of_eq h hfirst
  · rw [bind_ok h]
    exact (grows_of_eq h hfirst).trans (hnext a later h)

theorem grows_adapt
    {f : ε → ε'}
    {action : FileAction ε α}
    (h : Grows writes tree (action tree).2) :
    Grows writes tree (adapt f action tree).2 := by
  unfold adapt
  rcases haction : action tree with ⟨e | a, later⟩ <;> rw [haction] at h <;> exact h

end Actions

/-! ## Files -/

section Files

variable {writes : Location → Prop}
variable {tree after : FileTree}
variable {p : Path}
variable {content : Content}

theorem write_eq_ok_iff :
    tree.write p content = .ok after ↔
      p.endsInSlash = false ∧
        ∃ location, tree.resolve p = .ok location ∧ tree.get? location ≠ some .directory ∧
          after = tree.place location (.file content) := by
  unfold write
  cases hslash : p.endsInSlash with
  | true => cases tree.resolveNew p <;> simp
  | false =>
      cases hres : tree.resolve p with
      | error e => simp
      | ok location =>
          cases hnode : tree.get? location with
          | none => simp [hnode, eq_comm]
          | some node => cases node <;> simp [hnode, eq_comm]

/-- Writing a file grows a tree at the location of the file. -/
theorem grows_writeText
    {text : String}
    (hwrites : ∀ location, tree.resolve p = .ok location → writes location) :
    Grows writes tree (writeText p text tree).2 := by
  unfold writeText
  split
  · next hwrite =>
      obtain ⟨-, location, hres, hfree, rfl⟩ := write_eq_ok_iff.mp hwrite
      exact grows_place_file hfree (hwrites location hres)
  · exact Grows.refl _ _

end Files

end FileTree

/-! ## Generated files -/

namespace GeneratedFile

open FileTree

variable {writes : Location → Prop}
variable {tree made later : FileTree}
variable {path : Path}

theorem grows_makeParents
    (writes : Location → Prop)
    (path : Path)
    (tree : FileTree) :
    Grows writes tree (makeParents path tree).2 := by
  unfold makeParents
  cases path.parent? with
  | none => exact Grows.refl _ _
  | some parent => exact grows_createDirectories writes tree parent

theorem makeParents_again
    (h : makeParents path tree = (.ok (), made))
    (hgrows : Grows writes made later) :
    makeParents path later = (.ok (), later) := by
  unfold makeParents at h ⊢
  cases hparent : path.parent? with
  | none => rfl
  | some parent =>
      simp only [hparent] at h ⊢
      exact createDirectories_again h hgrows

/-- Storing a file grows a tree at the location of the file, also when it fails. -/
theorem grows_store
    (path : Path)
    (prepared : Option String)
    (tree : FileTree)
    (hwrites : ∀ later location, Grows writes tree later →
      later.resolve path = .ok location → writes location) :
    Grows writes tree (store path prepared tree).2 := by
  cases prepared with
  | none => exact Grows.refl _ _
  | some content =>
      have hparents := grows_makeParents writes path tree
      apply grows_bind
      · apply grows_adapt
        apply grows_bind hparents
        intro _ made hmade
        rw [hmade] at hparents
        exact grows_writeText fun location hres => hwrites made location hparents hres
      · intro _ later _
        exact Grows.refl _ _

end GeneratedFile
end GormForge
