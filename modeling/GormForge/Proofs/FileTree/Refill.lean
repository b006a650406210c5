import GormForge.Proofs.FileTree.Parents

/-!
# Writing into directories that exist

Changes of a tree that make no directories: files are written at certain locations only.

**Results.**
* `Refills.resolve_ok_iff`: paths lead to the same locations before and after.
* `Refills.get?_eq`: elsewhere nothing changes.
* `GeneratedFile.refills_store`: storing a file in a directory that exists makes no directories.
* `GeneratedFile.grows_of_store`: a file that was stored is the only one that changed.
-/

namespace GormForge
namespace FileTree

/-- A tree grows and has the same directories. -/
structure Refills (writes : Location → Prop) (before after : FileTree) : Prop
    extends Grows writes before after where
  wasDirectory : ∀ {location},
    after.get? location = some .directory → before.get? location = some .directory

section Refill

variable {writes : Location → Prop}
variable {before middle after tree : FileTree}
variable {location start : Location}
variable {p base : Path}
variable {parts : List (List Char)}

theorem Refills.refl
    (writes : Location → Prop)
    (tree : FileTree) :
    Refills writes tree tree where
  toGrows := Grows.refl writes tree
  wasDirectory h := h

theorem Refills.trans
    (first : Refills writes before middle)
    (second : Refills writes middle after) :
    Refills writes before after where
  toGrows := first.toGrows.trans second.toGrows
  wasDirectory h := first.wasDirectory (second.wasDirectory h)

theorem Refills.mono
    {more : Location → Prop}
    (h : Refills writes before after)
    (hmore : ∀ location, writes location → more location) :
    Refills more before after where
  toGrows := h.toGrows.mono hmore
  wasDirectory := h.wasDirectory

theorem refills_place_file
    {content : Content}
    (hfree : tree.get? location ≠ some .directory)
    (hwrites : writes location) :
    Refills writes tree (tree.place location (.file content)) where
  toGrows := grows_place_file hfree hwrites
  wasDirectory {other} h := by
    rw [get?_place] at h
    split at h
    · cases h
    · exact h

/-- Writing what a file holds changes nothing. -/
theorem place_same
    {node : FileNode}
    (h : tree.get? location = some node)
    (hroot : location ≠ []) :
    tree.place location node = tree := by
  unfold get? at h
  rw [if_neg hroot] at h
  unfold place
  rw [Keyed.put_of_get?_eq_some h]

/-- Elsewhere nothing changes. -/
theorem Refills.get?_eq
    (h : Refills writes before after)
    (hnot : ¬ writes location) :
    after.get? location = before.get? location := by
  rcases h.elsewhere hnot with heq | ⟨hnone, hmade⟩
  · exact heq
  · rw [h.wasDirectory hmade] at hnone
    cases hnone

theorem Refills.walk_eq_ok_iff
    (h : Refills writes before after) :
    after.walk start parts = .ok location ↔ before.walk start parts = .ok location := by
  induction parts generalizing start with
  | nil => rfl
  | cons segment rest ih =>
      have hrequire : after.requireDirectory start = .ok () ↔
          before.requireDirectory start = .ok () := by
        have hdir : ∀ tree : FileTree, tree.requireDirectory start = .ok () ↔
            tree.get? start = some .directory := by
          intro tree
          unfold requireDirectory
          split <;> simp_all
        rw [hdir, hdir]
        exact ⟨h.wasDirectory, h.directory⟩
      simp only [walk]
      cases hafter : after.requireDirectory start with
      | ok =>
          rw [hrequire.mp hafter]
          cases step start segment with
          | error e => simp
          | ok next => exact ih
      | error e =>
          cases hbefore : before.requireDirectory start with
          | ok =>
              rw [hrequire.mpr hbefore] at hafter
              cases hafter
          | error e' => simp

/-- Paths lead to the same locations. -/
theorem Refills.resolve_ok_iff
    (h : Refills writes before after) :
    after.resolve p = .ok location ↔ before.resolve p = .ok location := by
  unfold resolve
  cases checkText p with
  | error e => simp
  | ok =>
      rw [h.startOf]
      exact h.walk_eq_ok_iff

/-- What is missing stays out of sight, unless a file comes to stand in the way. -/
theorem Refills.walk_notFound
    (h : Refills writes before after)
    (hmiss : before.walk start parts = .error .notFound) :
    after.walk start parts = .error .notFound ∨ after.walk start parts = .error .notADirectory := by
  induction parts generalizing start with
  | nil => cases hmiss
  | cons segment rest ih =>
      simp only [walk] at hmiss ⊢
      cases hnode : after.get? start with
      | none => simp [requireDirectory, hnode]
      | some node =>
          cases node with
          | file content => simp [requireDirectory, hnode]
          | directory =>
              have hdir := h.wasDirectory hnode
              simp only [requireDirectory, hnode, hdir] at hmiss ⊢
              cases hstep : step start segment with
              | error e =>
                  rw [hstep] at hmiss
                  exact Or.inl hmiss
              | ok next =>
                  rw [hstep] at hmiss
                  exact ih hmiss

theorem Refills.resolve_notFound
    (h : Refills writes before after)
    (hmiss : before.resolve p = .error .notFound) :
    after.resolve p = .error .notFound ∨ after.resolve p = .error .notADirectory := by
  unfold resolve at hmiss ⊢
  cases hcheck : checkText p with
  | error e =>
      rw [hcheck] at hmiss
      exact Or.inl hmiss
  | ok =>
      rw [hcheck] at hmiss
      simp only [h.startOf] at hmiss ⊢
      exact h.walk_notFound hmiss

/-! ## Directories that exist -/

/-- The files of a directory lie at a location. -/
structure Holds (tree : FileTree) (base : Path) (location : Location) : Prop where
  walk : tree.walk (tree.startOf base) base.stem = .ok location
  directory : tree.get? location = some .directory

theorem Holds.grows
    (h : Holds before base location)
    (hgrows : Grows writes before after) :
    Holds after base location where
  walk := by
    rw [hgrows.startOf]
    rcases hgrows.walk (before.startOf base) base.stem with hmiss | heq
    · rw [h.walk] at hmiss
      cases hmiss
    · rw [heq, h.walk]
  directory := hgrows.directory h.directory

/-- A directory that can be seen holds its files. -/
theorem holds_of_isDirectory
    (h : tree.isDirectory base = true)
    (hempty : base.text.isEmpty = false) :
    ∃ location, tree.destination base = .ok location ∧ Holds tree base location := by
  obtain ⟨location, hres, hdir⟩ := isDirectory_iff.mp h
  refine ⟨location, destination_of_resolve hres, ?_, hdir⟩
  unfold resolve at hres
  split at hres
  · cases hres
  · rcases (Path.segments_eq_stem hempty).2 with heq | heq
    · rw [← heq]
      exact hres
    · rw [heq, walk_append] at hres
      split at hres
      · cases hres
      · next middle hmiddle =>
          rw [hmiddle, eq_of_walk_idle (by simp [Path.isIdle]) hres]

/-- A file in a directory that holds its files is not out of reach, or is so forever. -/
theorem Holds.resolve_child
    {name : String}
    (h : Holds tree base location)
    (hname : Path.IsName name) :
    tree.resolve (base.child name) = .ok (location ++ [name]) ∨
      ∃ e, e ≠ .notFound ∧ tree.resolve (base.child name) = .error e := by
  unfold resolve
  cases hcheck : checkText (base.child name) with
  | error e =>
      refine Or.inr ⟨e, ?_, rfl⟩
      rintro rfl
      exact checkText_ne_notFound (Path.isEmpty_text_child hname) hcheck
  | ok =>
      simp only [startOf_child hname, Path.segments_child hname.noSlash, walk_append, h.walk,
        FileTree.walk, requireDirectory, h.directory, step, hname.notIdle, hname.notUp,
        Bool.false_eq_true, if_false]
      by_cases hlong : Text.byteLength name.toList > maxNameBytes
      · exact Or.inr ⟨.nameTooLong, by simp, by simp [hlong]⟩
      · left
        simp [hlong]

/-- Files in a directory lie below it. -/
theorem Holds.eq_of_resolve_child
    {name : String}
    {place : Location}
    (h : Holds tree base location)
    (hname : Path.IsName name)
    (hres : tree.resolve (base.child name) = .ok place) :
    place = location ++ [name] := by
  rcases h.resolve_child hname with heq | ⟨e, -, heq⟩
  · rw [heq] at hres
    cases hres
    rfl
  · rw [heq] at hres
    cases hres

/-- A directory that is held in two trees holds its files in the same places. -/
theorem Holds.resolve_child_eq
    {name : String}
    (h : Holds before base location)
    (hafter : Holds after base location)
    (hname : Path.IsName name) :
    after.resolve (base.child name) = before.resolve (base.child name) :=
  resolve_child_congr hname hafter.walk hafter.directory h.walk h.directory

/-- What a file in a directory reads as depends on its node only. -/
theorem Holds.readText_child
    {name : String}
    (h : Holds before base location)
    (hafter : Holds after base location)
    (hname : Path.IsName name)
    (hsame : after.get? (location ++ [name]) = before.get? (location ++ [name])) :
    after.readText (base.child name) = before.readText (base.child name) := by
  unfold readText lookup
  rw [h.resolve_child_eq hafter hname]
  cases hres : before.resolve (base.child name) with
  | error e => rfl
  | ok place =>
      obtain rfl := h.eq_of_resolve_child hname hres
      simp only [hsame]

end Refill

end FileTree

namespace GeneratedFile

open FileTree

variable {writes : Location → Prop}
variable {tree after : FileTree}
variable {base : Path}
variable {name : String}
variable {location : Location}

/-- Storing a file in a directory that exists makes no directories. -/
theorem refills_store
    (h : Holds tree base location)
    (hname : Path.IsName name)
    (prepared : Option String)
    (hwrites : ∀ place, tree.resolve (base.child name) = .ok place → writes place) :
    Refills writes tree (store (base.child name) prepared tree).2 := by
  cases prepared with
  | none => exact Refills.refl _ _
  | some content =>
      have hsame := makeParents_child hname h.walk h.directory
      have hwrite : Refills writes tree
          (writeWithParents (base.child name) content tree).2 := by
        unfold writeWithParents adapt
        rcases hmake : makeParents (base.child name) tree with ⟨e | u, made⟩
        · rw [bind_error hmake]
          rw [hmake] at hsame
          simp only at hsame ⊢
          rw [hsame]
          exact Refills.refl _ _
        · rw [bind_ok hmake]
          rw [hmake] at hsame
          simp only at hsame
          subst hsame
          unfold writeText
          cases hput : made.write (base.child name) (.text content) with
          | error e => exact Refills.refl _ _
          | ok written =>
              obtain ⟨-, place, hres, hfree, rfl⟩ := write_eq_ok_iff.mp hput
              exact refills_place_file hfree (hwrites place hres)
      simp only [store]
      rcases hresult : writeWithParents (base.child name) content tree with ⟨e | u, written⟩
      · rw [bind_error hresult]
        rw [hresult] at hwrite
        exact hwrite
      · rw [bind_ok hresult]
        rw [hresult] at hwrite
        exact hwrite

/-! ## Files that are in place -/

/-- What was prepared for a file is in place: it is left alone, or it holds the text. -/
def InPlace (path : Path) : Option String → FileTree → Prop
  | none, tree => tree.pathExists path = true
  | some text, tree =>
      tree.readText path = .ok text ∧ makeParents path tree = (.ok (), tree)

variable {path : Path}
variable {prepared : Option String}
variable {before : FileTree}

theorem InPlace.pathExists
    (h : InPlace path prepared tree) :
    tree.pathExists path = true := by
  cases prepared with
  | none => exact h
  | some text =>
      obtain ⟨place, hres, hnode⟩ := readText_eq_ok_iff.mp h.1
      simp [FileTree.pathExists, lookup, hres, hnode, Except.isOk, Except.toBool]

/-- A file that was stored is in place. -/
theorem inPlace_store
    {text : String}
    {result : WriteResult}
    (h : store path (some text) tree = (.ok result, after)) :
    InPlace path (some text) after := by
  obtain ⟨-, hwrite⟩ := store_some_eq_ok_iff.mp h
  obtain ⟨made, hparents, hput⟩ := writeWithParents_eq_ok_iff.mp hwrite
  obtain ⟨-, place, hres, hfree, rfl⟩ := write_eq_ok_iff.mp hput
  have hrefills : Refills (fun _ => True) made (made.place place (.file (.text text))) :=
    refills_place_file hfree trivial
  have hroot : place ≠ [] := by
    rintro rfl
    simp [get?] at hfree
  refine ⟨readText_eq_ok_iff.mpr
    ⟨place, hrefills.resolve_ok_iff.mpr hres, by simp [hroot]⟩, ?_⟩
  exact makeParents_again hparents hrefills.toGrows

/-- Storing a file writes at no other location than the one at which it is found from then on. -/
theorem grows_of_store
    {result : Except WriteError WriteResult}
    (h : store path prepared tree = (result, after))
    (hres : after.resolve path = .ok location) :
    Grows (· = location) tree after := by
  have hany : Grows (fun _ => True) tree (store path prepared tree).2 :=
    grows_store path prepared tree fun _ _ _ _ => trivial
  have hdest : tree.destination path = .ok location := by
    rw [← (grows_of_eq h hany).destination]
    exact destination_of_resolve hres
  refine grows_of_eq h (grows_store path prepared tree fun later place hlater hplace => ?_)
  have hlaterDest := destination_of_resolve hplace
  rw [hlater.destination, hdest] at hlaterDest
  cases hlaterDest
  rfl

/-- A file in place stays there when other files are written. -/
theorem InPlace.grows
    (h : InPlace path prepared before)
    (hgrows : Grows writes before after)
    (hkeep : ∀ place, before.resolve path = .ok place → ¬ writes place) :
    InPlace path prepared after := by
  cases prepared with
  | none => exact hgrows.pathExists h
  | some text => exact ⟨hgrows.readText hkeep h.1, makeParents_again h.2 hgrows⟩

/-- Storing a file that is in place changes nothing. -/
theorem InPlace.store
    (h : InPlace path prepared tree)
    (hslash : path.endsInSlash = false) :
    GeneratedFile.store path prepared tree = (.ok (resultOf prepared), tree) := by
  cases prepared with
  | none => rfl
  | some text =>
      obtain ⟨hread, hparents⟩ := h
      obtain ⟨place, hres, hnode⟩ := readText_eq_ok_iff.mp hread
      refine store_some_eq_ok_iff.mpr ⟨rfl, writeWithParents_eq_ok_iff.mpr ⟨tree, hparents, ?_⟩⟩
      refine write_eq_ok_iff.mpr ⟨hslash, place, hres, by simp [hnode], ?_⟩
      rw [place_same hnode (ne_nil_of_file hnode)]

end GeneratedFile
end GormForge
