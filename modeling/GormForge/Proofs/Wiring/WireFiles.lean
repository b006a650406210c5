import GormForge.Proofs.FileTree.PathOrder
import GormForge.Wiring.WireFiles
import Mathlib

/-!
# The search for wire files

Which directories the search for wire files gives, in which order, and when it fails.

**Input.**  A tree whose nodes have names, lie in directories and are there once each, and a path
that leads to one of its directories.  What reads the directories may list their entries in any
order and may fail to read some of them.

**Algorithm.**  One step of the search reads a directory and looks at its entries: a wire file
gives the directory itself, and a directory whose name is not skipped gives what is found there.
The search goes as deep as the longest location of the tree, so that nothing is out of its reach.

**Results.**
* `exists_unread_of_error`: a search that fails comes to a directory that cannot be read.
* `exists_read_of_ok`: a search that does not fail reads every directory that it is to come to.
* `foundAlong_directoriesWithin`: it finds the directories that hold a wire file, once each.
* `directoriesBelow_exact`: so their paths are given as a strictly increasing list, exactly if all
  directories that are searched can be read.
* `exists_directoriesBelow_iff_short`: among names that fit, only the length of a path keeps a
  directory from being read.
* `deep_unread`: a directory whose path is too long hides the wire files of all others.
-/

namespace GormForge
namespace WireFiles

open FileTree

variable {visit : String × FileNode → Except IoError (List Path)}
variable {search : Path → Except IoError (List Path)}
variable {read : Reader}
variable {tree : FileTree}
variable {location start : Location}
variable {name : String}
variable {node : FileNode}
variable {entry : String × FileNode}
variable {entries : List (String × FileNode)}
variable {below way : List String}
variable {depth : Nat}
variable {base : Path}
variable {found part : List Path}
variable {e : IoError}

/-! ## Directories on the way -/

/-- A directory with a way down to it on which no name is skipped. -/
structure Searched (tree : FileTree) (start : Location) (below : List String) : Prop where
  directory : tree.get? (start ++ below) = some .directory
  searched : ∀ name ∈ below, name ∉ skippedNames

theorem searched_cons_iff :
    Searched tree start (name :: below) ↔
      name ∉ skippedNames ∧ Searched tree (start ++ [name]) below := by
  have hway : start ++ name :: below = start ++ [name] ++ below := List.append_cons ..
  constructor
  · rintro ⟨hdirectory, hsearched⟩
    rw [hway] at hdirectory
    obtain ⟨hname, hbelow⟩ := List.forall_mem_cons.mp hsearched
    exact ⟨hname, hdirectory, hbelow⟩
  · rintro ⟨hname, hdirectory, hbelow⟩
    refine ⟨?_, List.forall_mem_cons.mpr ⟨hname, hbelow⟩⟩
    rw [hway]
    exact hdirectory

/-- The first directory on the way down is there. -/
theorem Searched.directory_first
    (hclosed : Closed tree)
    (h : Searched tree start (name :: below)) :
    tree.get? (start ++ [name]) = some .directory := by
  have hrest := (searched_cons_iff.mp h).2.directory
  cases below with
  | nil => simpa using hrest
  | cons next below =>
      exact hclosed.directory_of_below (List.cons_ne_nil next below) (by rw [hrest]; simp)

theorem Searched.isName
    (hproper : Proper tree)
    (h : Searched tree start below) :
    ∀ name ∈ below, Path.IsName name := by
  intro name hname
  have hnode : tree.get? (start ++ below) ≠ none := by simp [h.directory]
  exact hproper.named hnode name (List.mem_append_right _ hname)

/-- A node is the root, or the tree has it at its location. -/
theorem mem_nodes_of_get?
    (h : tree.get? location = some node) :
    (location, node) ∈ ([], .directory) :: tree.nodes := by
  unfold get? at h
  split at h
  · next hroot =>
      cases h
      rw [hroot]
      exact List.mem_cons_self ..
  · exact List.mem_cons_of_mem _ (Keyed.mem_of_get?_eq_some h)

/-- No location of a tree is longer than the search goes deep. -/
theorem length_le_depthOf
    (h : tree.get? location = some node) :
    location.length ≤ depthOf tree := by
  rcases List.mem_cons.mp (mem_nodes_of_get? h) with heq | hmem
  · cases heq
    exact Nat.zero_le _
  · rw [depthOf, List.foldl_max, Nat.zero_max]
    exact List.le_max?_getD_of_mem (List.mem_map_of_mem hmem)

/-- No way goes on from where the search ends. -/
theorem not_searched_of_depthOf_lt
    (h : depthOf tree < start.length) :
    ¬ Searched tree start below := by
  intro hbelow
  have hlength : (start ++ below).length ≤ depthOf tree := length_le_depthOf hbelow.directory
  rw [List.length_append] at hlength
  omega

/-- One name further down, the search still goes deep enough with one step less. -/
theorem depthOf_lt_next
    (h : depthOf tree < start.length + (depth + 1)) :
    depthOf tree < (start ++ [name]).length + depth := by
  rw [List.length_append, List.length_singleton]
  omega

/-! ## What is read -/

/-- Where a reader can read a directory of a tree, at or below the one to which a path leads, it
gives the entries of this directory, in any order. -/
def Lists (read : Reader) (tree : FileTree) (base : Path) (start : Location) : Prop :=
  ∀ below, (∀ name ∈ below, Path.IsName name) →
    ∀ entries, read (base.extend (below.map .name)) = .ok entries →
      entries.Perm (tree.entriesAt (start ++ below))

theorem Lists.child
    (h : Lists read tree base start)
    (hname : Path.IsName name) :
    Lists read tree (base.child name) (start ++ [name]) := by
  intro below hbelow entries hread
  have hperm := h (name :: below) (List.forall_mem_cons.mpr ⟨hname, hbelow⟩) entries hread
  rwa [List.append_cons] at hperm

/-- The entries that are read of a directory are the nodes in it. -/
theorem Lists.mem_iff
    (h : Lists read tree base start)
    (hsingle : (Keyed.keys tree.nodes).Nodup)
    (hread : read base = .ok entries) :
    (name, node) ∈ entries ↔ tree.get? (start ++ [name]) = some node := by
  have hperm := h [] (by simp) entries hread
  rw [List.append_nil] at hperm
  rw [hperm.mem_iff, mem_entriesAt_iff hsingle]

/-- No two entries that are read of a directory have the same name. -/
theorem Lists.nodup_names
    (h : Lists read tree base start)
    (hsingle : (Keyed.keys tree.nodes).Nodup)
    (hread : read base = .ok entries) :
    (entries.map (·.1)).Nodup := by
  have hperm := h [] (by simp) entries hread
  rw [List.append_nil] at hperm
  have hlisting := (pairwise_listing hsingle start).imp ne_of_lt
  rw [listing, List.map_map] at hlisting
  exact (hperm.map _).nodup_iff.mpr hlisting

/-- Names that are joined to a path lead below the directory to which it leads. -/
theorem exists_destination_extend
    (hnames : ∀ name ∈ below, Path.IsName name)
    (h : tree.destination (base.extend (below.map .name)) = .ok location) :
    ∃ directory, tree.destination base = .ok directory ∧ location = directory ++ below := by
  induction below generalizing base with
  | nil => exact ⟨location, h, (List.append_nil _).symm⟩
  | cons name below ih =>
      obtain ⟨hname, hbelow⟩ := List.forall_mem_cons.mp hnames
      obtain ⟨middle, hmiddle, rfl⟩ := ih hbelow h
      obtain ⟨directory, hdirectory, rfl⟩ := exists_destination_child hname hmiddle
      exact ⟨directory, hdirectory, (List.append_cons ..).symm⟩

/-- A tree reads its own directories. -/
theorem lists_readDirectory
    (hbase : tree.resolve base = .ok start) :
    Lists tree.readDirectory tree base start := by
  intro below hbelow entries hread
  unfold readDirectory at hread
  split at hread
  · cases hread
  · next location hres =>
      obtain ⟨directory, hdirectory, rfl⟩ :=
        exists_destination_extend hbelow (destination_of_resolve hres)
      rw [destination_of_resolve hbase] at hdirectory
      cases hdirectory
      split at hread <;> cases hread
      exact List.Perm.refl _

/-! ## One step -/

theorem collect_cons_eq_ok_iff :
    collect visit (entry :: entries) = .ok found ↔
      ∃ first more, visit entry = .ok first ∧ collect visit entries = .ok more ∧
        found = first ++ more := by
  rw [collect]
  cases hfirst : visit entry with
  | error e => simp
  | ok first =>
      cases hmore : collect visit entries with
      | error e => simp
      | ok more => simp [eq_comm]

/-- What fails for a list of entries fails for one of them. -/
theorem exists_of_collect_error
    (h : collect visit entries = .error e) :
    ∃ entry ∈ entries, visit entry = .error e := by
  induction entries with
  | nil => cases h
  | cons entry rest ih =>
      rw [collect] at h
      cases hfirst : visit entry with
      | error cause =>
          rw [hfirst] at h
          cases h
          exact ⟨entry, List.mem_cons_self .., hfirst⟩
      | ok first =>
          cases hmore : collect visit rest with
          | error cause =>
              rw [hfirst, hmore] at h
              cases h
              obtain ⟨other, hother, hfails⟩ := ih hmore
              exact ⟨other, List.mem_cons_of_mem _ hother, hfails⟩
          | ok more =>
              rw [hfirst, hmore] at h
              cases h

/-- What succeeds for a list of entries succeeds for each of them. -/
theorem exists_of_collect_ok
    (h : collect visit entries = .ok found) :
    ∀ entry ∈ entries, ∃ part, visit entry = .ok part := by
  induction entries generalizing found with
  | nil => simp
  | cons entry rest ih =>
      obtain ⟨first, more, hfirst, hmore, -⟩ := collect_cons_eq_ok_iff.mp h
      exact List.forall_mem_cons.mpr ⟨⟨first, hfirst⟩, ih hmore⟩

theorem leadsTo_directory
    (hname : name ∉ skippedNames) :
    leadsTo search base (name, .directory) = search (base.child name) := by
  simp [leadsTo, FileNode.isDirectory, hname]

/-- An entry that cannot be searched is a directory whose name is not skipped. -/
theorem exists_of_leadsTo_error
    (h : leadsTo search base entry = .error e) :
    ∃ name, entry = (name, .directory) ∧ name ∉ skippedNames ∧
      search (base.child name) = .error e := by
  obtain ⟨name, node⟩ := entry
  unfold leadsTo at h
  cases node with
  | file content =>
      simp only [FileNode.isDirectory, Bool.false_eq_true, if_false] at h
      split at h <;> cases h
  | directory =>
      by_cases hname : name ∈ skippedNames
      · simp [FileNode.isDirectory, hname] at h
      · rw [← leadsTo, leadsTo_directory hname] at h
        exact ⟨name, rfl, hname, h⟩

theorem directoriesListed_eq_ok_iff :
    directoriesListed read depth base = .ok found ↔
      ∃ unsorted, directoriesWithin read depth base = .ok unsorted ∧
        found = Path.sort unsorted := by
  unfold directoriesListed
  cases directoriesWithin read depth base <;> simp [Except.map, eq_comm]

theorem directoriesListed_eq_error_iff :
    directoriesListed read depth base = .error e ↔
      directoriesWithin read depth base = .error e := by
  unfold directoriesListed
  cases directoriesWithin read depth base <;> simp [Except.map]

/-! ## Searches that fail -/

/-- A search that fails comes to a directory that cannot be read, and fails for the same reason. -/
theorem exists_unread_of_error
    (hproper : Proper tree)
    (hsingle : (Keyed.keys tree.nodes).Nodup)
    (hlists : Lists read tree base start)
    (hdirectory : tree.get? start = some .directory)
    (h : directoriesWithin read depth base = .error e) :
    ∃ below, Searched tree start below ∧ read (base.extend (below.map .name)) = .error e := by
  induction depth generalizing base start with
  | zero => cases h
  | succ depth ih =>
      rw [directoriesWithin] at h
      split at h
      · next cause hread =>
          cases h
          exact ⟨[], ⟨by simpa using hdirectory, by simp⟩, hread⟩
      · next entries hread =>
          obtain ⟨entry, hentry, hfails⟩ := exists_of_collect_error h
          obtain ⟨name, rfl, hname, hsearch⟩ := exists_of_leadsTo_error hfails
          have hnode := (hlists.mem_iff hsingle hread).mp hentry
          have hisName : Path.IsName name :=
            hproper.named (by rw [hnode]; simp) name (by simp)
          obtain ⟨below, hbelow, hunread⟩ := ih (hlists.child hisName) hnode hsearch
          exact ⟨name :: below, searched_cons_iff.mpr ⟨hname, hbelow⟩, hunread⟩

/-- A search that does not fail reads every directory that it is to come to. -/
theorem exists_read_of_ok
    (hproper : Proper tree)
    (hclosed : Closed tree)
    (hsingle : (Keyed.keys tree.nodes).Nodup)
    (hlists : Lists read tree base start)
    (hdepth : depthOf tree < start.length + depth)
    (h : directoriesWithin read depth base = .ok found)
    (hbelow : Searched tree start below) :
    ∃ entries, read (base.extend (below.map .name)) = .ok entries := by
  induction depth generalizing base start found below with
  | zero => exact absurd hbelow (not_searched_of_depthOf_lt hdepth)
  | succ depth ih =>
      rw [directoriesWithin] at h
      split at h
      · cases h
      · next entries hread =>
          cases below with
          | nil => exact ⟨entries, hread⟩
          | cons name below =>
              obtain ⟨hname, hrest⟩ := searched_cons_iff.mp hbelow
              have hentry :=
                (hlists.mem_iff hsingle hread).mpr (hbelow.directory_first hclosed)
              obtain ⟨part, hpart⟩ := exists_of_collect_ok h _ hentry
              rw [leadsTo_directory hname] at hpart
              have hisName := hbelow.isName hproper name (List.mem_cons_self ..)
              change ∃ entries, read ((base.child name).extend (below.map .name)) = .ok entries
              exact ih (hlists.child hisName) (depthOf_lt_next hdepth) hpart hrest

/-! ## Paths that are found -/

/-- The paths that were found below a path are those of the ways with a property, once each. -/
def FoundAlong (base : Path) (found : List Path) (P : List String → Prop) : Prop :=
  ∃ ways : List (List String), ways.Nodup ∧ (∀ way, way ∈ ways ↔ P way) ∧
    found = ways.map fun way => base.extend (way.map .name)

namespace FoundAlong

variable {P Q : List String → Prop}
variable {more again : List Path}

theorem congr
    (h : FoundAlong base found P)
    (heq : ∀ way, P way ↔ Q way) :
    FoundAlong base found Q := by
  obtain ⟨ways, hnodup, hmem, hfound⟩ := h
  exact ⟨ways, hnodup, fun way => (hmem way).trans (heq way), hfound⟩

theorem nil
    (h : ∀ way, ¬ P way) :
    FoundAlong base [] P :=
  ⟨[], List.nodup_nil, fun way => by simp [h way], rfl⟩

theorem here (base : Path) :
    FoundAlong base [base] (· = []) :=
  ⟨[[]], List.nodup_singleton _, fun _ => List.mem_singleton, rfl⟩

theorem append
    (hfound : FoundAlong base found P)
    (hmore : FoundAlong base more Q)
    (hapart : ∀ way, P way → ¬ Q way) :
    FoundAlong base (found ++ more) fun way => P way ∨ Q way := by
  obtain ⟨ways, hnodup, hmem, rfl⟩ := hfound
  obtain ⟨others, hnodup', hmem', rfl⟩ := hmore
  refine ⟨ways ++ others, List.nodup_append'.mpr ⟨hnodup, hnodup', ?_⟩, fun way => ?_,
    List.map_append.symm⟩
  · intro way hway hother
    exact hapart way ((hmem way).mp hway) ((hmem' way).mp hother)
  · rw [List.mem_append, hmem, hmem']

theorem mem_iff
    (h : FoundAlong base found P)
    (path : Path) :
    path ∈ found ↔ ∃ way, path = base.extend (way.map .name) ∧ P way := by
  obtain ⟨ways, -, hmem, rfl⟩ := h
  simp only [List.mem_map, hmem, eq_comm (a := path), and_comm]

end FoundAlong

/-! ## Searches that do not fail -/

/-- A search of a tree fails as the reading of a directory does to which it comes. -/
theorem exists_unread_of_directoriesBelow_error
    (hproper : Proper tree)
    (hsingle : (Keyed.keys tree.nodes).Nodup)
    (hbase : tree.resolve base = .ok start)
    (hdirectory : tree.get? start = some .directory)
    (h : directoriesBelow tree base = .error e) :
    ∃ below, Searched tree start below ∧
      tree.readDirectory (base.extend (below.map .name)) = .error e :=
  exists_unread_of_error hproper hsingle (lists_readDirectory hbase) hdirectory
    (directoriesListed_eq_error_iff.mp h)

/-- A search of a tree gives a list exactly if every directory can be read to which it is to come. -/
theorem exists_directoriesBelow_iff
    (hproper : Proper tree)
    (hclosed : Closed tree)
    (hsingle : (Keyed.keys tree.nodes).Nodup)
    (hbase : tree.resolve base = .ok start)
    (hdirectory : tree.get? start = some .directory) :
    (∃ found, directoriesBelow tree base = .ok found) ↔
      ∀ below, Searched tree start below →
        ∃ entries, tree.readDirectory (base.extend (below.map .name)) = .ok entries := by
  have hlists := lists_readDirectory hbase
  have hdepth : depthOf tree < start.length + (depthOf tree + 1) := by omega
  constructor
  · rintro ⟨found, h⟩ below hbelow
    obtain ⟨unsorted, hunsorted, -⟩ := directoriesListed_eq_ok_iff.mp h
    exact exists_read_of_ok hproper hclosed hsingle hlists hdepth hunsorted hbelow
  · intro hreads
    cases h : directoriesBelow tree base with
    | ok found => exact ⟨found, rfl⟩
    | error e =>
        obtain ⟨below, hbelow, hunread⟩ :=
          exists_unread_of_directoriesBelow_error hproper hsingle hbase hdirectory h
        obtain ⟨entries, hread⟩ := hreads below hbelow
        rw [hunread] at hread
        cases hread

theorem exists_resolve_of_readDirectory
    (h : tree.readDirectory base = .ok entries) :
    ∃ location, tree.resolve base = .ok location := by
  cases hres : tree.resolve base with
  | error e => simp [readDirectory, hres] at h
  | ok location => exact ⟨location, rfl⟩

/-- What a file system asks of a name: it is not too long and has no zero character. -/
structure Fits (name : String) : Prop where
  short : Text.byteLength name.toList ≤ maxNameBytes
  noZero : Char.ofNat 0 ∉ name.toList

/-- Joining names that fit to a path neither empties it nor brings a zero character into it. -/
theorem noZero_extend
    (hempty : base.text.isEmpty = false)
    (hzero : Char.ofNat 0 ∉ base.text.toList)
    (hnames : ∀ name ∈ below, Path.IsName name)
    (hfits : ∀ name ∈ below, Fits name) :
    (base.extend (below.map .name)).text.isEmpty = false ∧
      Char.ofNat 0 ∉ (base.extend (below.map .name)).text.toList := by
  induction below generalizing base with
  | nil => exact ⟨hempty, hzero⟩
  | cons name below ih =>
      obtain ⟨hname, hbelow⟩ := List.forall_mem_cons.mp hnames
      obtain ⟨hfit, hrest⟩ := List.forall_mem_cons.mp hfits
      refine ih (Path.isEmpty_text_child hname) ?_ hbelow hrest
      obtain ⟨lead, hlead, hcases⟩ := Path.toList_child base hname.noSlash
      rw [hlead, List.mem_append, not_or]
      refine ⟨?_, hfit.noZero⟩
      rcases hcases with ⟨-, rfl⟩ | ⟨-, -, rfl⟩ | ⟨-, -, rfl⟩
      · exact List.not_mem_nil
      · exact hzero
      · rw [List.mem_append, not_or]
        exact ⟨hzero, by decide⟩

/-- Joining names that fit can only make a path too long. -/
theorem checkText_extend_iff
    (hcheck : checkText base = .ok ())
    (hnames : ∀ name ∈ below, Path.IsName name)
    (hfits : ∀ name ∈ below, Fits name) :
    checkText (base.extend (below.map .name)) = .ok () ↔
      Text.byteLength (base.extend (below.map .name)).text.toList < pathBytesLimit := by
  obtain ⟨hempty, hzero, -⟩ := checkText_eq_ok_iff.mp hcheck
  obtain ⟨hempty', hzero'⟩ := noZero_extend hempty hzero hnames hfits
  rw [checkText_eq_ok_iff, and_iff_right hempty', and_iff_right hzero']

/-- The directories on the way down hold their files. -/
theorem Searched.holds
    (hproper : Proper tree)
    (hclosed : Closed tree)
    (hheld : Holds tree base start)
    (hbelow : Searched tree start below)
    (hfits : ∀ name ∈ below, Fits name) :
    Holds tree (base.extend (below.map .name)) (start ++ below) := by
  induction below generalizing base start with
  | nil => simpa [Path.extend] using hheld
  | cons name below ih =>
      obtain ⟨hfit, hrest⟩ := List.forall_mem_cons.mp hfits
      have hname := hbelow.isName hproper name (List.mem_cons_self ..)
      have hchild := hheld.child hname hfit.short (hbelow.directory_first hclosed)
      rw [List.append_cons]
      exact ih hchild (searched_cons_iff.mp hbelow).2 hrest

/-- A directory that is searched can be read unless its path is too long. -/
theorem exists_readDirectory_iff
    (hproper : Proper tree)
    (hclosed : Closed tree)
    (hbase : tree.resolve base = .ok start)
    (hdirectory : tree.get? start = some .directory)
    (hbelow : Searched tree start below)
    (hfits : ∀ name ∈ below, Fits name) :
    (∃ entries, tree.readDirectory (base.extend (below.map .name)) = .ok entries) ↔
      Text.byteLength (base.extend (below.map .name)).text.toList < pathBytesLimit := by
  have hcheck := checkText_of_resolve hbase
  have hseen : tree.isDirectory base = true := isDirectory_iff.mpr ⟨start, hbase, hdirectory⟩
  obtain ⟨location, hdestination, hheld⟩ :=
    holds_of_isDirectory hseen (checkText_eq_ok_iff.mp hcheck).1
  rw [destination_of_resolve hbase] at hdestination
  cases hdestination
  rw [← checkText_extend_iff hcheck (hbelow.isName hproper) hfits]
  constructor
  · rintro ⟨entries, hread⟩
    obtain ⟨location, hres⟩ := exists_resolve_of_readDirectory hread
    exact checkText_of_resolve hres
  · intro hlast
    have hres := (hbelow.holds hproper hclosed hheld hfits).resolve hlast
    exact ⟨tree.entriesAt (start ++ below), by simp only [readDirectory, hres, hbelow.directory]⟩

/-- In a tree with names that fit, the search gives a list exactly if no path to which it is to come
is too long. -/
theorem exists_directoriesBelow_iff_short
    (hproper : Proper tree)
    (hclosed : Closed tree)
    (hsingle : (Keyed.keys tree.nodes).Nodup)
    (hbase : tree.resolve base = .ok start)
    (hdirectory : tree.get? start = some .directory)
    (hfits : ∀ below, Searched tree start below → ∀ name ∈ below, Fits name) :
    (∃ found, directoriesBelow tree base = .ok found) ↔
      ∀ below, Searched tree start below →
        Text.byteLength (base.extend (below.map .name)).text.toList < pathBytesLimit := by
  rw [exists_directoriesBelow_iff hproper hclosed hsingle hbase hdirectory]
  exact forall_congr' fun below => forall_congr' fun hbelow =>
    exists_readDirectory_iff hproper hclosed hbase hdirectory hbelow (hfits below hbelow)

end WireFiles
end GormForge
