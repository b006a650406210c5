import GormForge.Proofs.FileTree.Entries

/-!
# Directories in directories

What making the directories above a file changes, and where a file lies that is several
directories down.

**Input.**  A directory that exists, and names of directories and of a file below it.

**Results.**
* `Path.parents_child_child`: the paths above a file are the directories one by one.
* `makeDirectories_elsewhere`: only the directories are made that do not exist.
* `Closed.eq_none_of_missing`: what comes to be seen at a path that never goes up is new.
* `pathExists_child_child_eq_false`: a file stays missing if nothing new lies at its location.
* `GeneratedFile.holds_store_child_child`, `GeneratedFile.get?_store_child_child`: storing a file
  two directories down makes these directories and the file only.
-/

namespace GormForge

/-! ## Paths -/

namespace Path

variable {base : Path}
variable {name other : String}

/-- The segments of a directory in a directory. -/
theorem stem_child
    (h : IsName name) :
    (base.child name).stem = base.stem ++ [name.toList] := by
  rw [stem, isEmpty_text_child h, endsInSlash_child h]
  exact segments_child h.noSlash

theorem ofSegments_segments
    (p : Path) :
    ofSegments p.segments = p := by
  have htext : List.intercalate ['/'] (p.text.toList.splitOn '/') = p.text.toList :=
    List.intercalate_splitOn '/'
  rw [ofSegments, segments, htext, String.ofList_toList]

theorem upward_stem_child
    (base : Path)
    (h : IsName name) :
    upward (base.child name).stem.reverse = base.child name :: (base.child name).parents := by
  have hsegments : (base.child name).segments = base.stem ++ [name.toList] :=
    segments_child h.noSlash
  have hchild : base.child name = ofSegments (base.stem ++ [name.toList]) := by
    rw [← hsegments, ofSegments_segments]
  have hup : upward (name.toList :: base.stem.reverse) =
      ofSegments (base.stem ++ [name.toList]) ::
        (upward (name.toList :: base.stem.reverse)).tail := by
    cases hstem : base.stem.reverse with
    | nil =>
        have hnil : base.stem = [] := by simpa using hstem
        simp [upward, h.ne_nil, hnil]
    | cons segment rest => simp [upward, h.notIdle, ← hstem]
  have hreverse : (base.stem ++ [name.toList]).reverse = name.toList :: base.stem.reverse := by
    simp
  rw [stem_child h, parents, isEmpty_text_child h, hsegments, hreverse, hup, ← hchild]
  rfl

/-- The path above the files of a directory in a directory is that of the directory. -/
theorem above_child
    (base : Path)
    (h : IsName name) :
    (base.child name).above = base.child name := by
  rw [above, if_neg (by simp [stem_child h]), upward_stem_child base h]
  rfl

/-- The paths above a file in a directory are that of the directory and those above it. -/
theorem parents_child_child
    (base : Path)
    (h : IsName name)
    (hother : IsName other) :
    ((base.child name).child other).parents = base.child name :: (base.child name).parents := by
  rw [parents_child hother, if_neg (by simp [stem_child h]), upward_stem_child base h]

/-- The nearest path above a file. -/
theorem exists_parents_child
    (base : Path)
    (h : IsName name) :
    ∃ rest, (base.child name).parents = base.above :: rest := by
  have hparent : (base.child name).parent? = some base.above := parent?_child_eq h
  unfold parent? at hparent
  exact List.head?_eq_some_iff.mp hparent

end Path

namespace FileTree

variable {writes : Location → Prop}
variable {tree made : FileTree}
variable {location directory : Location}
variable {base p : Path}
variable {name : String}

/-! ## Making directories -/

/-- A new directory takes the location to which its path leads. -/
theorem destination_of_resolveNew
    (h : tree.resolveNew p = .ok location) :
    tree.destination p = .ok location := by
  unfold resolveNew at h
  split at h
  · cases h
  · obtain ⟨n, hparts⟩ := exists_withoutTrailing p.segments
    have hidle : ∀ segment ∈ List.replicate n ([] : List Char), Path.isIdle segment = true := by
      intro segment hsegment
      rw [List.eq_of_mem_replicate hsegment]
      rfl
    unfold destination
    rw [hparts, follow_append, follow_of_walk h]
    exact follow_idle hidle location

/-- Only the directories are made that come before one that is there. -/
theorem makeDirectories_elsewhere
    {front rest : List Path}
    (hrest : (tree.makeDirectories rest).2 = tree)
    (hfront : ∀ p ∈ front, tree.destination p ≠ .ok location) :
    (tree.makeDirectories (front ++ rest)).2.get? location = tree.get? location := by
  -- making a directory whose path does not lead to the location
  have hmake : ∀ {seen made : FileTree} {p : Path}, seen.cwd = tree.cwd → p ∈ front →
      seen.makeDirectory p = .ok made → made.get? location = seen.get? location := by
    intro seen made p hcwd hp hok
    obtain ⟨place, hnew, -, rfl⟩ := makeDirectory_eq_ok_iff.mp hok
    rw [get?_place, if_neg]
    rintro ⟨rfl, -⟩
    refine hfront p hp ?_
    rw [← destination_of_resolveNew hnew]
    simp [destination, startOf, hcwd]
  induction front with
  | nil => rw [List.nil_append, hrest]
  | cons p above ih =>
      have hp : p ∈ p :: above := List.mem_cons_self ..
      have habove := ih (fun q hq => hfront q (List.mem_cons_of_mem _ hq))
        (fun hcwd hq => hmake hcwd (List.mem_cons_of_mem _ hq))
      have hcwd := (grows_makeDirectories (fun _ => True) tree (above ++ rest)).cwd
      rw [List.cons_append]
      unfold makeDirectories
      split
      · rfl
      · split
        · next made hok => exact hmake rfl hp hok
        · split
          · next hfail =>
              rw [hfail] at habove
              exact habove
          · next made hmade =>
              rw [hmade] at habove hcwd
              unfold makeDirectories.settle
              split
              · next settled hok => exact (hmake hcwd hp hok).trans habove
              · split
                · exact habove
                · exact habove
        · split <;> rfl

/-! ## Where directories lie -/

/-- A path leads below where the path of its directory leads. -/
theorem exists_destination_child
    (hname : Path.IsName name)
    (h : tree.destination (base.child name) = .ok location) :
    ∃ directory, tree.destination base = .ok directory ∧ location = directory ++ [name] := by
  obtain ⟨directory, hfollow, rfl⟩ := destination_child hname h
  exact ⟨directory, by rw [destination_eq_follow, hfollow], rfl⟩

theorem Holds.destination
    (h : Holds tree base directory) :
    tree.destination base = .ok directory := by
  rw [destination_eq_follow]
  exact follow_of_walk h.walk

/-- A directory in a directory holds its files. -/
theorem Holds.child
    (h : Holds tree base directory)
    (hname : Path.IsName name)
    (hshort : Text.byteLength name.toList ≤ maxNameBytes)
    (hdir : tree.get? (directory ++ [name]) = some .directory) :
    Holds tree (base.child name) (directory ++ [name]) where
  walk := by
    rw [startOf_child hname, Path.stem_child hname, walk_append, h.walk]
    simp [FileTree.walk, requireDirectory, h.directory, step, hname.notIdle, hname.notUp,
      Nat.not_lt.mpr hshort]
  directory := hdir

/-- A walk can begin along a path that is not empty, has no zero character and is not too long. -/
theorem checkText_eq_ok_iff :
    checkText p = .ok () ↔
      p.text.isEmpty = false ∧ Char.ofNat 0 ∉ p.text.toList ∧
        Text.byteLength p.text.toList < pathBytesLimit := by
  unfold checkText
  split
  · next hempty => simp [hempty]
  · next hempty =>
      split
      · next hzero => simp [List.contains_iff_mem.mp hzero]
      · next hzero =>
          have hnot : Char.ofNat 0 ∉ p.text.toList := fun hmem =>
            hzero (List.contains_iff_mem.mpr hmem)
          split
          · next hlong => simp [hlong]
          · next hlong => exact iff_of_true rfl ⟨Bool.eq_false_iff.mpr hempty, hnot, by omega⟩

theorem checkText_of_resolve
    (h : tree.resolve p = .ok location) :
    checkText p = .ok () := by
  cases hcheck : checkText p with
  | error e => simp [resolve, hcheck] at h
  | ok => rfl

/-- The path of a directory that holds its files leads to it, unless it is refused for its text. -/
theorem Holds.resolve
    (h : Holds tree base directory)
    (hcheck : checkText base = .ok ()) :
    tree.resolve base = .ok directory := by
  simp only [FileTree.resolve, hcheck]
  rcases (Path.segments_eq_stem (checkText_eq_ok_iff.mp hcheck).1).2 with heq | heq
  · rw [heq, h.walk]
  · rw [heq, walk_append, h.walk]
    exact walk_replicate h.directory 1

/-! ## Going down -/

/-- A tree in which everything lies in a directory. -/
def Closed (tree : FileTree) : Prop :=
  ∀ location name, tree.get? (location ++ [name]) ≠ none → tree.get? location = some .directory

/-- A tree is closed if each of its entries lies in a directory. -/
theorem closed_of_nodes
    (h : ∀ entry ∈ tree.nodes, tree.get? entry.1.dropLast = some .directory) :
    Closed tree := by
  intro location name hnode
  unfold get? at hnode
  rw [if_neg (by simp)] at hnode
  obtain ⟨node, hsome⟩ := Option.ne_none_iff_exists'.mp hnode
  have hdir := h _ (Keyed.mem_of_get?_eq_some hsome)
  rwa [List.dropLast_concat] at hdir

/-- What is anywhere below a location lies in a directory there. -/
theorem Closed.directory_of_below
    {below : Location}
    (h : Closed tree)
    (hne : below ≠ [])
    (hnode : tree.get? (location ++ below) ≠ none) :
    tree.get? location = some .directory := by
  induction below generalizing location with
  | nil => exact absurd rfl hne
  | cons name rest ih =>
      rw [List.append_cons] at hnode
      refine h location name ?_
      by_cases hnil : rest = []
      · rwa [hnil, List.append_nil] at hnode
      · rw [ih hnil hnode]
        simp

/-- A step that does not go up leads from a directory. -/
theorem Closed.of_step
    {start next : Location}
    {segment : List Char}
    (h : Closed tree)
    (hdown : segment ≠ ['.', '.'])
    (hstep : step start segment = .ok next)
    (hnext : tree.get? next = some .directory) :
    tree.get? start = some .directory := by
  unfold step at hstep
  split at hstep
  · cases hstep
    exact hnext
  · split at hstep
    · cases hstep
    · cases hstep
      exact h start (String.ofList segment) (by rw [hnext]; simp)

/-- A walk that never goes up finds every directory on its way to one that is there. -/
theorem Closed.walk_of_follow
    {start : Location}
    {parts : List (List Char)}
    (h : Closed tree)
    (hdown : ['.', '.'] ∉ parts)
    (hfollow : follow start parts = .ok location)
    (hdir : tree.get? location = some .directory) :
    tree.get? start = some .directory ∧ tree.walk start parts = .ok location := by
  induction parts generalizing start with
  | nil =>
      cases hfollow
      exact ⟨hdir, rfl⟩
  | cons segment rest ih =>
      rw [List.mem_cons, not_or] at hdown
      simp only [follow] at hfollow
      split at hfollow
      · cases hfollow
      · next next hstep =>
          obtain ⟨hnext, hwalk⟩ := ih hdown.2 hfollow
          have hstart := h.of_step (Ne.symm hdown.1) hstep hnext
          refine ⟨hstart, ?_⟩
          simp only [FileTree.walk, requireDirectory, hstart, hstep]
          exact hwalk

/-- What comes to be seen at a path was not there before, or a directory on the way was missing. -/
theorem Grows.eq_none_or_notFound
    (h : Grows writes tree made)
    (hmissing : tree.pathExists p = false)
    (hres : made.resolve p = .ok location) :
    tree.get? location = none ∨ tree.resolve p = .error .notFound := by
  rcases h.resolve p with hnot | heq
  · exact Or.inr hnot
  · left
    by_contra hnode
    have hexists := pathExists_iff.mpr ⟨location, heq ▸ hres, hnode⟩
    rw [hmissing] at hexists
    cases hexists

/-- What comes to be seen in a directory that was there was not there before. -/
theorem Holds.eq_none_of_missing
    (hheld : Holds tree base directory)
    (hgrows : Grows writes tree made)
    (hname : Path.IsName name)
    (hmissing : tree.pathExists (base.child name) = false)
    (hres : made.resolve (base.child name) = .ok location) :
    tree.get? location = none := by
  rcases hgrows.eq_none_or_notFound hmissing hres with hnone | hnot
  · exact hnone
  · -- nothing on the way was missing
    rcases hheld.resolve_child hname with hok | ⟨e, hne, herror⟩
    · rw [hnot] at hok
      cases hok
    · rw [hnot] at herror
      cases herror
      exact absurd rfl hne

/-- What comes to be seen at a path that never goes up was not there before. -/
theorem Closed.eq_none_of_missing
    (hclosed : Closed tree)
    (hgrows : Grows writes tree made)
    (hname : Path.IsName name)
    (hdown : ['.', '.'] ∉ (base.child name).segments)
    (hmissing : tree.pathExists (base.child name) = false)
    (hres : made.resolve (base.child name) = .ok location) :
    tree.get? location = none := by
  by_contra hnode
  have hdest := destination_of_resolve hres
  rw [hgrows.destination] at hdest
  obtain ⟨directory, hfollow, rfl⟩ := destination_child hname hdest
  rw [Path.segments_child hname.noSlash, List.mem_append, not_or] at hdown
  have hdir := hclosed directory name hnode
  have hheld : Holds tree base directory := ⟨(hclosed.walk_of_follow hdown.1 hfollow hdir).2, hdir⟩
  exact hnode (hheld.eq_none_of_missing hgrows hname hmissing hres)

/-! ## Two directories down -/

section TwoDown

variable {root : Path}
variable {inner dir file : String}

/-- Where the directories of a directory lead. -/
theorem eq_of_destination_child_child
    (hinner : Path.IsName inner)
    (hdir : Path.IsName dir)
    (hroot : tree.destination root = .ok directory)
    (h : tree.destination ((root.child inner).child dir) = .ok location) :
    location = directory ++ [inner] ++ [dir] := by
  obtain ⟨middle, hmiddle, rfl⟩ := exists_destination_child hdir h
  obtain ⟨found, hfound, rfl⟩ := exists_destination_child hinner hmiddle
  rw [hroot] at hfound
  cases hfound
  rfl

/-- A file stays missing if nothing new lies at its location. -/
theorem pathExists_child_child_eq_false
    (hclosed : Closed tree)
    (hroot : Holds tree root directory)
    (hinner : Path.IsName inner)
    (hinnerShort : Text.byteLength inner.toList ≤ maxNameBytes)
    (hdir : Path.IsName dir)
    (hdirShort : Text.byteLength dir.toList ≤ maxNameBytes)
    (hfile : Path.IsName file)
    (hgrows : Grows writes tree made)
    (hsame : made.get? (directory ++ [inner] ++ [dir] ++ [file]) =
      tree.get? (directory ++ [inner] ++ [dir] ++ [file]))
    (hmissing : tree.pathExists (((root.child inner).child dir).child file) = false) :
    made.pathExists (((root.child inner).child dir).child file) = false := by
  rw [Bool.eq_false_iff]
  intro hexists
  obtain ⟨place, hres, hnode⟩ := pathExists_iff.mp hexists
  -- something was at that location before, so that its directories were there as well
  obtain ⟨found, hfound, rfl⟩ := exists_destination_child hfile (destination_of_resolve hres)
  have hdestination := hroot.destination
  rw [← hgrows.destination] at hdestination
  obtain rfl := eq_of_destination_child_child hinner hdir hdestination hfound
  rw [hsame] at hnode
  have hdirThere := hclosed _ _ hnode
  have hinnerThere : tree.get? (directory ++ [inner]) = some .directory :=
    hclosed (directory ++ [inner]) dir (by simp only [hdirThere]; simp)
  have hholds := (hroot.child hinner hinnerShort hinnerThere).child hdir hdirShort hdirThere
  exact hnode (hholds.eq_none_of_missing hgrows hfile hmissing hres)

end TwoDown

end FileTree

namespace GeneratedFile

open FileTree

variable {tree stored : FileTree}
variable {root : Path}
variable {inner dir file : String}
variable {directory location : Location}
variable {text : String}
variable {result : WriteResult}

theorem proper_store
    {path : Path}
    (h : Proper tree)
    (hstore : store path (some text) tree = (.ok result, stored)) :
    Proper stored := by
  obtain ⟨-, hwrite⟩ := store_some_eq_ok_iff.mp hstore
  obtain ⟨made, hparents, hput⟩ := writeWithParents_eq_ok_iff.mp hwrite
  have hmade : Proper (makeParents path tree).2 := by
    unfold makeParents
    cases path.parent? with
    | none => exact h
    | some parent => exact h.createDirectories parent
  rw [hparents] at hmade
  exact hmade.write hput

/-- Storing a file two directories down makes these directories. -/
theorem holds_store_child_child
    (hroot : Holds tree root directory)
    (hinner : Path.IsName inner)
    (hdir : Path.IsName dir)
    (hfile : Path.IsName file)
    (hstore : store (((root.child inner).child dir).child file) (some text) tree =
      (.ok result, stored)) :
    Holds stored ((root.child inner).child dir) (directory ++ [inner] ++ [dir]) := by
  obtain ⟨-, hwrite⟩ := store_some_eq_ok_iff.mp hstore
  obtain ⟨made, hparents, hput⟩ := writeWithParents_eq_ok_iff.mp hwrite
  obtain ⟨-, place, hres, hfree, rfl⟩ := write_eq_ok_iff.mp hput
  have hgrows : Grows (fun _ => True) tree made := by
    have h := grows_makeParents (fun _ => True) (((root.child inner).child dir).child file) tree
    rw [hparents] at h
    exact h
  have hempty : ((root.child inner).child dir).text.isEmpty = false :=
    Path.isEmpty_text_child hdir
  unfold makeParents at hparents
  rw [Path.parent?_child_eq hfile, Path.above_child _ hdir] at hparents
  obtain ⟨found, hfound, hheld⟩ := holds_of_isDirectory
    (isDirectory_of_makeDirectories hparents hempty) hempty
  have hdestination := hroot.destination
  rw [← hgrows.destination] at hdestination
  obtain rfl := eq_of_destination_child_child hinner hdir hdestination hfound
  have hwritten : Grows (fun _ => True) made (made.place place (.file (.text text))) :=
    grows_place_file hfree trivial
  exact hheld.grows hwritten

/-- Storing a file two directories down makes these directories and the file only. -/
theorem get?_store_child_child
    (hroot : Holds tree root directory)
    (hinner : Path.IsName inner)
    (hdir : Path.IsName dir)
    (hfile : Path.IsName file)
    (hstore : store (((root.child inner).child dir).child file) (some text) tree =
      (.ok result, stored))
    (hnotInner : location ≠ directory ++ [inner])
    (hnotDir : location ≠ directory ++ [inner] ++ [dir])
    (hnotFile : location ≠ directory ++ [inner] ++ [dir] ++ [file]) :
    stored.get? location = tree.get? location := by
  have hheld := holds_store_child_child hroot hinner hdir hfile hstore
  obtain ⟨-, hwrite⟩ := store_some_eq_ok_iff.mp hstore
  obtain ⟨made, hparents, hput⟩ := writeWithParents_eq_ok_iff.mp hwrite
  obtain ⟨-, place, hres, hfree, rfl⟩ := write_eq_ok_iff.mp hput
  have hrefills : Refills (fun _ => True) made (made.place place (.file (.text text))) :=
    refills_place_file hfree trivial
  obtain rfl := hheld.eq_of_resolve_child hfile (hrefills.resolve_ok_iff.mpr hres)
  rw [get?_place, if_neg fun h => hnotFile h.1.symm]
  -- the directories above, the two that may be new first
  obtain ⟨rest, hrest⟩ := Path.exists_parents_child root hinner
  unfold makeParents at hparents
  rw [Path.parent?_child_eq hfile, Path.above_child _ hdir] at hparents
  simp only [createDirectories, Path.parents_child_child root hinner hdir, hrest] at hparents
  have hfront : ∀ p ∈ [(root.child inner).child dir, root.child inner],
      tree.destination p ≠ .ok location := by
    intro p hp hlocation
    simp only [List.mem_cons, List.not_mem_nil, or_false] at hp
    rcases hp with rfl | rfl
    · exact hnotDir (eq_of_destination_child_child hinner hdir hroot.destination hlocation)
    · obtain ⟨found, hfound, rfl⟩ := exists_destination_child hinner hlocation
      rw [hroot.destination] at hfound
      cases hfound
      exact hnotInner rfl
  have helsewhere := makeDirectories_elsewhere
    (makeDirectories_above hroot.walk hroot.directory rest) hfront
  simp only [List.cons_append, List.nil_append] at helsewhere
  rw [hparents] at helsewhere
  exact helsewhere

end GeneratedFile
end GormForge
