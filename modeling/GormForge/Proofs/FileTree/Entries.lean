import GormForge.Proofs.FileTree.Refill
import Mathlib.Data.String.Basic

/-!
# Entries of directories

Trees whose nodes have names, and what a directory lists.

**Results.**
* `Proper.install`, `Proper.createDirectories`, `Proper.refills`: the actions on a tree keep it
  proper.
* `Proper.isName_of_mem`: a directory lists names.
* `mem_entriesAt_iff`: a directory lists the nodes that are in it.
* `pairwise_listing`: a directory lists its names in increasing order.
* `listing_congr`: what a directory lists depends on the outline of a tree only.
-/

namespace GormForge
namespace FileTree

variable {writes : Location → Prop}
variable {tree before after made : FileTree}
variable {location start : Location}
variable {p : Path}

/-! ## Proper trees -/

/-- A location that consists of names. -/
def Location.IsProper (location : Location) : Prop :=
  ∀ name ∈ location, Path.IsName name

instance (location : Location) : Decidable (Location.IsProper location) :=
  inferInstanceAs (Decidable (∀ name ∈ location, Path.IsName name))

theorem isProper_append
    {name : String}
    (h : Location.IsProper location)
    (hname : Path.IsName name) :
    Location.IsProper (location ++ [name]) := by
  intro other hother
  rcases List.mem_append.mp hother with hother | hother
  · exact h other hother
  · rw [List.mem_singleton.mp hother]
    exact hname

/-- A tree whose nodes have names and whose working directory is there. -/
structure Proper (tree : FileTree) : Prop where
  named : ∀ {location}, tree.get? location ≠ none → Location.IsProper location
  cwd : tree.get? tree.cwd = some .directory

/-- A tree is proper if its entries have names. -/
theorem proper_of_nodes
    (hnodes : ∀ entry ∈ tree.nodes, Location.IsProper entry.1)
    (hcwd : tree.get? tree.cwd = some .directory) :
    Proper tree where
  named {location} hnode := by
    unfold get? at hnode
    split at hnode
    · next hroot =>
        rw [hroot]
        intro name hname
        cases hname
    · obtain ⟨node, hsome⟩ := Option.ne_none_iff_exists'.mp hnode
      exact hnodes _ (Keyed.mem_of_get?_eq_some hsome)
  cwd := hcwd

theorem Proper.startOf
    (h : Proper tree)
    (p : Path) :
    Location.IsProper (tree.startOf p) := by
  unfold FileTree.startOf
  split
  · intro name hname
    cases hname
  · exact h.named (by simp [h.cwd])

theorem isProper_step
    {segment : List Char}
    {next : Location}
    (h : Location.IsProper location)
    (hsegment : '/' ∉ segment)
    (hstep : step location segment = .ok next) :
    Location.IsProper next := by
  unfold step at hstep
  split at hstep
  · cases hstep
    exact h
  · next hidle =>
      split at hstep
      · cases hstep
        exact fun name hname => h name (List.dropLast_subset _ hname)
      · next hup =>
          split at hstep
          · cases hstep
          · cases hstep
            refine isProper_append h ⟨?_, ?_, ?_⟩ <;> rw [String.toList_ofList]
            · exact hsegment
            · simpa using hidle
            · exact hup

/-- Walks lead to locations that consist of names. -/
theorem isProper_follow
    {parts : List (List Char)}
    (h : Location.IsProper start)
    (hparts : ∀ part ∈ parts, '/' ∉ part)
    (hfollow : follow start parts = .ok location) :
    Location.IsProper location := by
  induction parts generalizing start with
  | nil =>
      cases hfollow
      exact h
  | cons segment rest ih =>
      simp only [follow] at hfollow
      split at hfollow
      · cases hfollow
      · next next hstep =>
          have hnext := isProper_step h (hparts segment (List.mem_cons_self ..)) hstep
          exact ih hnext (fun part hpart => hparts part (List.mem_cons_of_mem _ hpart)) hfollow

theorem Proper.destination
    (h : Proper tree)
    (hdest : tree.destination p = .ok location) :
    Location.IsProper location :=
  isProper_follow (h.startOf p) (fun _ hpart => Path.noSlash_of_mem_segments hpart) hdest

/-- Writing files under proper names keeps a tree proper. -/
theorem Proper.refills
    (h : Proper before)
    (hrefills : Refills writes before after)
    (hwrites : ∀ location, writes location → Location.IsProper location) :
    Proper after where
  named {location} hnode := by
    by_cases hwritten : writes location
    · exact hwrites location hwritten
    · rw [hrefills.get?_eq hwritten] at hnode
      exact h.named hnode
  cwd := by
    rw [hrefills.cwd]
    exact hrefills.directory h.cwd

theorem Proper.makeDirectory
    (h : Proper tree)
    (hmake : tree.makeDirectory p = .ok made) :
    Proper made := by
  have hgrows := grows_makeDirectory (fun _ => False) hmake
  obtain ⟨location, hnew, -, rfl⟩ := makeDirectory_eq_ok_iff.mp hmake
  have hlocation : Location.IsProper location := by
    unfold resolveNew at hnew
    split at hnew
    · cases hnew
    · refine isProper_follow (h.startOf p) (fun part hpart => ?_) (follow_of_walk hnew)
      obtain ⟨n, hparts⟩ := exists_withoutTrailing p.segments
      refine Path.noSlash_of_mem_segments (p := p) ?_
      rw [hparts]
      exact List.mem_append_left _ hpart
  refine ⟨fun {other} hnode => ?_, hgrows.directory h.cwd⟩
  rw [get?_place] at hnode
  split at hnode
  · next heq =>
      rw [← heq.1]
      exact hlocation
  · exact h.named hnode

theorem Proper.settle
    (h : Proper tree)
    (p : Path) :
    Proper (makeDirectories.settle tree p).2 := by
  unfold makeDirectories.settle
  split
  · next hmade => exact h.makeDirectory hmade
  · split <;> exact h

theorem Proper.makeDirectories
    (h : Proper tree)
    (paths : List Path) :
    Proper (tree.makeDirectories paths).2 := by
  induction paths with
  | nil => exact h
  | cons p above ih =>
      unfold FileTree.makeDirectories
      split
      · exact h
      · split
        · next hmade => exact h.makeDirectory hmade
        · split
          · next hfail =>
              rw [hfail] at ih
              exact ih
          · next hmade =>
              rw [hmade] at ih
              exact ih.settle p
        · split <;> exact h

/-- Making directories keeps a tree proper. -/
theorem Proper.createDirectories
    (h : Proper tree)
    (p : Path) :
    Proper (FileTree.createDirectories p tree).2 :=
  h.makeDirectories (p :: p.parents)

theorem Proper.write
    {content : Content}
    (h : Proper tree)
    (hwrite : tree.write p content = .ok after) :
    Proper after := by
  obtain ⟨-, location, hres, hfree, rfl⟩ := write_eq_ok_iff.mp hwrite
  have hrefills : Refills (· = location) tree (tree.place location (.file content)) :=
    refills_place_file hfree rfl
  refine h.refills hrefills ?_
  rintro _ rfl
  exact h.destination (destination_of_resolve hres)

/-- A tree stays proper when directories and files are put into it. -/
theorem Proper.install
    (h : Proper tree)
    (p : Path)
    (content : Option Content) :
    Proper (tree.install p content) := by
  cases content with
  | none => exact h.makeDirectories _
  | some content =>
      have hmade := h.makeDirectories p.parents
      simp only [FileTree.install]
      split
      · next hwrite => exact hmade.write hwrite
      · exact hmade

/-- A directory that was made holds its files, and so does the working directory. -/
theorem Proper.exists_holds
    (h : Proper tree)
    (hmade : FileTree.createDirectories p tree = (.ok (), made)) :
    ∃ location, made.destination p = .ok location ∧ Holds made p location := by
  cases hempty : p.text.isEmpty with
  | false => exact holds_of_isDirectory (isDirectory_of_makeDirectories hmade hempty) hempty
  | true =>
      have hproper := h.createDirectories p
      rw [hmade] at hproper
      have hstem := Path.stem_eq_nil_iff.mpr hempty
      have htext : p.text = "" := by simpa using hempty
      have hstart : made.startOf p = made.cwd := by
        simp [FileTree.startOf, Path.isAbsolute, htext]
      refine ⟨made.cwd, ?_, ?_, hproper.cwd⟩
      · rw [destination_eq_follow, hstem, hstart]
        rfl
      · rw [hstem, hstart]
        rfl

/-! ## Listings -/

/-- The locations of the nodes, with whether there is a directory. -/
def outline (tree : FileTree) : List (Location × Bool) :=
  tree.nodes.map fun entry => (entry.1, entry.2.isDirectory)

/-- The entries of a directory, with whether they are directories. -/
def listing (tree : FileTree) (location : Location) : List (String × Bool) :=
  (tree.entriesAt location).map fun entry => (entry.1, entry.2.isDirectory)

theorem eq_append_of_nameIn?
    {other : Location}
    {name : String}
    (h : nameIn? location other = some name) :
    other = location ++ [name] := by
  unfold nameIn? at h
  split at h
  · next last hlast =>
      split at h
      · next hfront =>
          cases h
          obtain ⟨front, rfl⟩ := List.getLast?_eq_some_iff.mp hlast
          rw [List.dropLast_concat] at hfront
          rw [hfront]
      · cases h
  · cases h

theorem nameIn?_eq_some_iff
    {other : Location}
    {name : String} :
    nameIn? location other = some name ↔ other = location ++ [name] := by
  constructor
  · exact eq_append_of_nameIn?
  · rintro rfl
    simp [nameIn?]

/-- A directory lists the nodes that are in it, if each location is there once. -/
theorem mem_entriesAt_iff
    {name : String}
    {node : FileNode}
    (hsingle : (Keyed.keys tree.nodes).Nodup) :
    (name, node) ∈ tree.entriesAt location ↔ tree.get? (location ++ [name]) = some node := by
  have hget : tree.get? (location ++ [name]) = Keyed.get? (location ++ [name]) tree.nodes := by
    simp [get?]
  rw [hget]
  unfold entriesAt
  rw [List.mem_mergeSort, List.mem_filterMap]
  constructor
  · rintro ⟨⟨place, found⟩, hmem, hentry⟩
    obtain ⟨other, hname, heq⟩ := Option.map_eq_some_iff.mp hentry
    cases heq
    rw [← nameIn?_eq_some_iff.mp hname]
    exact Keyed.get?_eq_some_of_mem hsingle hmem
  · intro h
    exact ⟨_, Keyed.mem_of_get?_eq_some h, by simp [nameIn?_eq_some_iff.mpr rfl]⟩

/-- A directory of a proper tree lists names. -/
theorem Proper.isName_of_mem
    (h : Proper tree)
    {entry : String × FileNode}
    (hentry : entry ∈ tree.entriesAt location) :
    Path.IsName entry.1 := by
  unfold entriesAt at hentry
  rw [List.mem_mergeSort, List.mem_filterMap] at hentry
  obtain ⟨node, hnode, hname⟩ := hentry
  obtain ⟨name, hin, rfl⟩ := Option.map_eq_some_iff.mp hname
  have hat := eq_append_of_nameIn? hin
  have hthere : tree.get? node.1 ≠ none := by
    unfold get?
    split
    · simp
    · exact Keyed.get?_ne_none_of_mem hnode
  exact h.named hthere name (by rw [hat]; simp)

/-- A directory lists what the outline has in it, by name. -/
theorem listing_eq
    (tree : FileTree)
    (location : Location) :
    tree.listing location =
      (tree.outline.filterMap fun entry =>
        (nameIn? location entry.1).map fun name => (name, entry.2)).mergeSort
          fun a b => a.1 ≤ b.1 := by
  unfold listing entriesAt outline
  rw [List.map_mergeSort (s := fun a b : String × Bool => decide (a.1 ≤ b.1)) (by simp),
    List.map_filterMap, List.filterMap_map]
  congr 2
  funext entry
  cases hname : nameIn? location entry.1 <;> simp [hname]

theorem listing_of_sorted
    {entries : List (String × Bool)}
    (hfound : (tree.outline.filterMap fun entry =>
      (nameIn? location entry.1).map fun name => (name, entry.2)) = entries)
    (hsorted : entries.Pairwise fun a b => a.1 ≤ b.1) :
    tree.listing location = entries := by
  rw [listing_eq, hfound]
  exact List.mergeSort_of_pairwise (by simpa using hsorted)

/-- A directory lists its names in increasing order if each location is there once. -/
theorem pairwise_listing
    (hsingle : (Keyed.keys tree.nodes).Nodup)
    (location : Location) :
    ((tree.listing location).map (·.1)).Pairwise (· < ·) := by
  have hsorted : (tree.entriesAt location).Pairwise fun a b => a.1 ≤ b.1 := by
    have htrans : ∀ a b c : String × FileNode,
        decide (a.1 ≤ b.1) → decide (b.1 ≤ c.1) → decide (a.1 ≤ c.1) := by
      simp only [decide_eq_true_eq]
      exact fun _ _ _ => le_trans
    have htotal : ∀ a b : String × FileNode, decide (a.1 ≤ b.1) || decide (b.1 ≤ a.1) := by
      simp only [Bool.or_eq_true, decide_eq_true_eq]
      exact fun _ _ => le_total _ _
    unfold entriesAt
    simpa only [decide_eq_true_eq] using List.pairwise_mergeSort htrans htotal _
  have hapart : (tree.entriesAt location).Pairwise fun a b => a.1 ≠ b.1 := by
    refine ((List.mergeSort_perm _ _).pairwise_iff fun h => h.symm).mpr ?_
    refine List.Pairwise.filterMap _ (fun first second hne => ?_) (List.pairwise_map.mp hsingle)
    intro a ha b hb
    obtain ⟨name, hname, rfl⟩ := Option.map_eq_some_iff.mp ha
    obtain ⟨other, hother, rfl⟩ := Option.map_eq_some_iff.mp hb
    rintro rfl
    exact hne ((eq_append_of_nameIn? hname).trans (eq_append_of_nameIn? hother).symm)
  rw [listing, List.map_map, List.pairwise_map]
  exact (hsorted.and hapart).imp fun ⟨hle, hne⟩ => lt_of_le_of_ne hle hne

/-- What a directory lists depends on the outline of a tree only. -/
theorem listing_congr
    (h : after.outline = before.outline)
    (location : Location) :
    after.listing location = before.listing location := by
  rw [listing_eq, listing_eq, h]

/-- Writing a file that is there keeps the outline. -/
theorem outline_place
    {old new : Content}
    (h : tree.get? location = some (.file old)) :
    (tree.place location (.file new)).outline = tree.outline := by
  have hkeyed : Keyed.get? location tree.nodes = some (.file old) := by
    unfold get? at h
    split at h
    · cases h
    · exact h
  unfold outline place
  simp only
  generalize tree.nodes = nodes at hkeyed
  induction nodes with
  | nil => cases hkeyed
  | cons entry rest ih =>
      obtain ⟨k, node⟩ := entry
      unfold Keyed.get? at hkeyed
      unfold Keyed.put
      split at hkeyed
      · next hk =>
          cases hkeyed
          simp [hk, FileNode.isDirectory]
      · next hk =>
          rw [if_neg hk, List.map_cons, List.map_cons, ih hkeyed]

end FileTree
end GormForge
