import GormForge.Proofs.FileTree.Filling
import GormForge.Proofs.Wiring.Edits
import GormForge.Proofs.Wiring.Account

/-!
# Where patching halts

What the provider files hold when patching them fails.

**Input.**  Any insertions and a proper tree in which each location is listed once.

**Algorithm.**  Files are patched in the order of their names.  A file is read, patched in memory
with one insertion after the other, and written after the last one.  What fails before that leaves
the file as it is, and the files after it are not looked at.

**Results.**
* `exists_names_of_candidates`: the candidates are files of one directory in name order.
* `patchFile_eq_error_iff`: a file fails if it cannot be read or if a marker is ambiguous in what
  the insertions before it made of its text.
* `filled_patchFiles`: files that were patched hold what all insertions make of their old text,
  and all else is as before.
* `patch_halts`: patching fails at one candidate, with those before it patched as a whole and
  everything else as before.
-/

namespace GormForge

/-! ## Contents -/

namespace Insertion

variable {insertions : List Insertion}
variable {path : Path}
variable {content : String}
variable {e : WireError}

/-- A content fails at one of the insertions, patched with those before it. -/
theorem patchAll_eq_error_iff :
    patchAll path insertions content = .error e ↔
      ∃ earlier insertion later middle outcomes,
        insertions = earlier ++ insertion :: later ∧
          patchAll path earlier content = .ok (middle, outcomes) ∧
          insertion.patchContent path middle = .error e := by
  induction insertions generalizing content with
  | nil => simp [patchAll]
  | cons first rest ih =>
      constructor
      · intro h
        simp only [patchAll] at h
        split at h
        · next hfirst =>
            cases h
            exact ⟨[], first, rest, content, [], rfl, rfl, hfirst⟩
        · next patched patch hfirst =>
            split at h
            · next hrest =>
                cases h
                obtain ⟨earlier, insertion, later, middle, outcomes, rfl, hearlier, hfail⟩ :=
                  ih.mp hrest
                exact ⟨first :: earlier, insertion, later, middle, _, rfl,
                  patchAll_cons_eq_ok_iff.mpr ⟨patched, patch, outcomes, hfirst, hearlier, rfl⟩,
                  hfail⟩
            · cases h
      · rintro ⟨earlier, insertion, later, middle, outcomes, hsplit, hearlier, hfail⟩
        cases earlier with
        | nil =>
            cases hsplit
            cases hearlier
            simp [patchAll, hfail]
        | cons head earlier =>
            rw [List.cons_append] at hsplit
            obtain ⟨rfl, rfl⟩ := List.cons.inj hsplit
            obtain ⟨patched, patch, more, hfirst, hmore, -⟩ := patchAll_cons_eq_ok_iff.mp hearlier
            have hrest := ih.mpr ⟨earlier, insertion, later, middle, more, rfl, hmore, hfail⟩
            simp [patchAll, hfirst, hrest]

end Insertion

namespace Providers

open FileTree

variable {insertions : List Insertion}
variable {outcomes : List PatchOutcome}
variable {ground tree after : FileTree}
variable {base path target : Path}
variable {paths : List Path}
variable {location : Location}
variable {name : String}
variable {names : List String}
variable {done : String → Prop}
variable {e : WireError}

/-! ## Candidates in order -/

/-- The candidates are files of one directory in name order. -/
theorem exists_names_of_candidates
    (hproper : Proper tree)
    (hsingle : (Keyed.keys tree.nodes).Nodup)
    (h : candidates tree target = .ok paths) :
    ∃ (location : Location) (names : List String),
      tree.resolve (directoryOf target) = .ok location ∧
        Holds tree (directoryOf target) location ∧
        paths = names.map (directoryOf target).child ∧
        names.Pairwise (· < ·) ∧
        ∀ name ∈ names, Path.IsName name := by
  obtain ⟨location, hdest, hheld⟩ := exists_holds_of_candidates h
  obtain ⟨found, hres, -, -, hpaths⟩ := candidates_eq_ok_iff.mp h
  obtain rfl : found = location := by
    rw [destination_of_resolve hres] at hdest
    exact Except.ok.inj hdest
  refine ⟨found, ((tree.listing found).filter fun entry => !entry.2).map (·.1), hres, hheld,
    ?_, ?_, fun name hname => ?_⟩
  · rw [hpaths, List.map_map]
    rfl
  · exact (pairwise_listing hsingle found).sublist (List.filter_sublist.map _)
  · obtain ⟨entry, hentry, rfl⟩ := List.mem_map.mp hname
    obtain ⟨node, hnode, rfl⟩ := List.mem_map.mp (List.mem_filter.mp hentry).1
    exact hproper.isName_of_mem hnode

/-! ## One file -/

/-- Why patching halts at a file: it cannot be read, or the marker of an insertion is ambiguous in
what the insertions before it made of its text. -/
inductive Halts (insertions : List Insertion) (path : Path) (tree : FileTree) : WireError → Prop
  | unreadable
      {cause : IoError}
      (hread : tree.readText path = .error cause) :
      Halts insertions path tree (.read path cause)
  | ambiguous
      {content middle : String} {earlier later : List Insertion} {insertion : Insertion}
      {outcomes : List PatchOutcome} {numbers : List Nat}
      (hread : tree.readText path = .ok content)
      (hsplit : insertions = earlier ++ insertion :: later)
      (hearlier : Insertion.patchAll path earlier content = .ok (middle, outcomes))
      (hmarker : insertion.patchContent path middle =
        .error (.ambiguousMarker path (Text.trim insertion.marker) numbers)) :
      Halts insertions path tree
        (.ambiguousMarker path (Text.trim insertion.marker) numbers)

theorem Halts.congr
    {other : FileTree}
    (h : Halts insertions path tree e)
    (hsame : other.readText path = tree.readText path) :
    Halts insertions path other e := by
  cases h with
  | unreadable hread => exact .unreadable (hsame.trans hread)
  | ambiguous hread hsplit hearlier hmarker =>
      exact .ambiguous (hsame.trans hread) hsplit hearlier hmarker

theorem halts_of_patchAll
    {content : String}
    (hread : tree.readText path = .ok content)
    (h : Insertion.patchAll path insertions content = .error e) :
    Halts insertions path tree e := by
  obtain ⟨earlier, insertion, later, middle, outcomes, hsplit, hearlier, hfail⟩ :=
    Insertion.patchAll_eq_error_iff.mp h
  obtain ⟨-, -, rfl⟩ := Insertion.patchContent_eq_error_iff.mp hfail
  exact .ambiguous hread hsplit hearlier hfail

/-- Patching a file fails if it halts there, and changes nothing then. -/
theorem patchFile_eq_error_iff
    (hslash : path.endsInSlash = false) :
    patchFile insertions path tree = (.error e, after) ↔
      Halts insertions path tree e ∧ after = tree := by
  constructor
  · intro h
    unfold patchFile at h
    split at h
    · next hread =>
        cases h
        exact ⟨.unreadable hread, rfl⟩
    · next content hread =>
        split at h
        · next hpatch =>
            cases h
            exact ⟨halts_of_patchAll hread hpatch, rfl⟩
        · next patched outcomes hpatch =>
            split at h
            · cases h
            · split at h
              · next hwrite =>
                  -- what was read can be written
                  obtain ⟨location, hres, hnode⟩ := readText_eq_ok_iff.mp hread
                  have hwritten : tree.write path (.text patched) =
                      .ok (tree.place location (.file (.text patched))) :=
                    write_eq_ok_iff.mpr ⟨hslash, location, hres, by simp [hnode], rfl⟩
                  rw [hwritten] at hwrite
                  cases hwrite
              · cases h
  · rintro ⟨h, rfl⟩
    cases h with
    | unreadable hread => simp [patchFile, hread]
    | ambiguous hread hsplit hearlier hmarker =>
        have hall := Insertion.patchAll_eq_error_iff.mpr
          ⟨_, _, _, _, _, hsplit, hearlier, hmarker⟩
        simp [patchFile, hread, hall]

/-! ## Files that were patched -/

/-- The text that all insertions make of the file under a name. -/
def patchedText? (insertions : List Insertion) (base : Path) (location : Location)
    (tree : FileTree) (name : String) : Option String :=
  match tree.get? (location ++ [name]) with
  | some (.file (.text content)) =>
      (Insertion.patchAll (base.child name) insertions content).toOption.map (·.1)
  | _ => none

theorem patchedText?_eq_some_iff
    {text : String} :
    patchedText? insertions base location tree name = some text ↔
      ∃ content outcomes,
        tree.get? (location ++ [name]) = some (.file (.text content)) ∧
          Insertion.patchAll (base.child name) insertions content = .ok (text, outcomes) := by
  unfold patchedText?
  split
  · next content hnode =>
      simp only [hnode, Option.some.injEq, FileNode.file.injEq, Content.text.injEq,
        exists_and_left, exists_eq_left']
      cases Insertion.patchAll (base.child name) insertions content with
      | error e => simp [Except.toOption]
      | ok result => simp [Except.toOption, Prod.ext_iff]
  · next hnot =>
      simp only [reduceCtorEq, false_iff]
      rintro ⟨content, outcomes, hnode, -⟩
      exact hnot content hnode

/-- A file that is patched for the first time comes to hold what all insertions make of it. -/
theorem filled_patchFile
    (hfilled : Filled ground location (patchedText? insertions base location ground) done tree)
    (hheld : Holds tree base location)
    (hname : Path.IsName name)
    (hnew : ¬ done name)
    (h : patchFile insertions (base.child name) tree = (.ok outcomes, after)) :
    (∃ text, patchedText? insertions base location ground name = some text) ∧
      Filled ground location (patchedText? insertions base location ground)
        (fun other => done other ∨ other = name) after := by
  rcases patchFile_cases h with ⟨-, e, he⟩ |
    ⟨content, patched, _, place, -, hres, hnode, hpatch, rfl⟩
  · cases he
  · obtain rfl := hheld.eq_of_resolve_child hname hres
    rw [hfilled.get?_of_not_done hnew] at hnode
    have hwanted := patchedText?_eq_some_iff.mpr ⟨content, _, hnode, hpatch⟩
    exact ⟨⟨patched, hwanted⟩, hfilled.place hwanted⟩

/-- Files of a directory that are patched one after the other come to hold what all insertions make
of them. -/
theorem filled_patchFiles
    (hfilled : Filled ground location (patchedText? insertions base location ground) done tree)
    (hheld : Holds tree base location)
    (hnames : ∀ name ∈ names, Path.IsName name)
    (hnodup : names.Nodup)
    (hnew : ∀ name ∈ names, ¬ done name)
    (h : patchFiles insertions (names.map base.child) tree = (.ok outcomes, after)) :
    (∀ name ∈ names, ∃ text, patchedText? insertions base location ground name = some text) ∧
      Filled ground location (patchedText? insertions base location ground)
        (fun other => done other ∨ other ∈ names) after ∧
      Holds after base location := by
  induction names generalizing tree outcomes done with
  | nil =>
      cases h
      exact ⟨by simp, hfilled.congr (by simp), hheld⟩
  | cons name rest ih =>
      obtain ⟨hapart, hrest⟩ := List.nodup_cons.mp hnodup
      obtain ⟨hname, hnames⟩ := List.forall_mem_cons.mp hnames
      obtain ⟨hfresh, hnew⟩ := List.forall_mem_cons.mp hnew
      obtain ⟨first, middle, more, hfirst, hmore, -⟩ := patchFiles_cons_eq_ok_iff.mp h
      obtain ⟨htext, hmiddle⟩ := filled_patchFile hfilled hheld hname hfresh hfirst
      have hlater : ∀ other ∈ rest, ¬ (done other ∨ other = name) := by
        rintro other hother (hdone | rfl)
        · exact hnew other hother hdone
        · exact hapart hother
      obtain ⟨htexts, hafter, hheld'⟩ := ih hmiddle
        (hheld.grows (refills_of_patchFile hfirst).toGrows) hnames hrest hlater hmore
      refine ⟨List.forall_mem_cons.mpr ⟨htext, htexts⟩, hafter.congr fun other => ?_, hheld'⟩
      rw [List.mem_cons, or_assoc]

/-! ## All files -/

/-- Patching halted at the candidate `name`, which stands between others in name order: those
before it hold what all insertions make of their old texts, and it, those after it and everything
else are as before. -/
structure HaltedAt (insertions : List Insertion) (target : Path) (tree after : FileTree)
    (e : WireError) (location : Location) (front : List String) (name : String)
    (back : List String) : Prop where
  directory : tree.resolve (directoryOf target) = .ok location
  candidates : candidates tree target =
    .ok ((front ++ name :: back).map (directoryOf target).child)
  sorted : (front ++ name :: back).Pairwise (· < ·)
  halts : Halts insertions ((directoryOf target).child name) tree e
  kept : ∀ other ∈ name :: back,
    after.get? (location ++ [other]) = tree.get? (location ++ [other])
  patched : ∀ other ∈ front, ∃ content patched outcomes,
    tree.get? (location ++ [other]) = some (.file (.text content)) ∧
      Insertion.patchAll ((directoryOf target).child other) insertions content =
        .ok (patched, outcomes) ∧
      after.get? (location ++ [other]) = some (.file (.text patched))
  elsewhere : ∀ place, (∀ other ∈ front, place ≠ location ++ [other]) →
    after.get? place = tree.get? place

/-- Patching that fails halted at one of the candidates, if there are any. -/
theorem patch_halts
    (hproper : Proper tree)
    (hsingle : (Keyed.keys tree.nodes).Nodup)
    (h : patch target insertions tree = (.error e, after)) :
    (candidates tree target = .error e ∧ after = tree) ∨
      ∃ location front name back,
        HaltedAt insertions target tree after e location front name back := by
  rw [patch_of_candidates] at h
  split at h
  · next hcandidates =>
      cases h
      exact Or.inl ⟨hcandidates, rfl⟩
  · next paths hcandidates =>
      right
      obtain ⟨location, names, hres, hheld, rfl, hsorted, hnames⟩ :=
        exists_names_of_candidates hproper hsingle hcandidates
      obtain ⟨done, path, rest, outcomes, hpaths, hdone, hfail⟩ := patchFiles_eq_error h
      obtain ⟨front, others, rfl, rfl, hothers⟩ := List.map_eq_append_iff.mp hpaths
      obtain ⟨name, back, rfl, rfl, rfl⟩ := List.map_eq_cons_iff.mp hothers
      have hnodup : (front ++ name :: back).Nodup := hsorted.imp ne_of_lt
      obtain ⟨hfront, -, hapart⟩ := List.nodup_append.mp hnodup
      obtain ⟨hfrontNames, hbackNames⟩ := List.forall_mem_append.mp hnames
      have hname := hbackNames name (List.mem_cons_self ..)
      obtain ⟨htexts, hfilled, hheld'⟩ := filled_patchFiles
        (filled_ground tree location (patchedText? insertions (directoryOf target) location tree)
          fun _ => not_false)
        hheld hfrontNames hfront (by simp) hdone
      simp only [false_or] at hfilled
      have hkept : ∀ other ∈ name :: back,
          after.get? (location ++ [other]) = tree.get? (location ++ [other]) :=
        fun other hother => hfilled.get?_of_not_done fun hin => hapart other hin other hother rfl
      -- the file fails as it would have failed before the others were patched
      have hhalts := ((patchFile_eq_error_iff (Path.endsInSlash_child hname)).mp hfail).1
      refine ⟨location, front, name, back, hres, hcandidates, hsorted,
        hhalts.congr (hheld'.readText_child hheld hname ?_), hkept, fun other hother => ?_,
        fun place hplace => hfilled.kept fun other hother _ => hplace other hother⟩
      · exact (hkept name (List.mem_cons_self ..)).symm
      · obtain ⟨patched, hwanted⟩ := htexts other hother
        obtain ⟨content, made, hnode, hpatch⟩ := patchedText?_eq_some_iff.mp hwanted
        exact ⟨content, patched, made, hnode, hpatch, hfilled.written hother hwanted⟩

/-! ## Three provider files -/

/-- Files of which the second has a marker on two lines and the third is no text. -/
def mixedTree : FileTree where
  nodes := [(["a.go"], .file (.text "M\nN\n")), (["b.go"], .file (.text "M\nN\nN\n")),
    (["c.go"], .file (.binary [255]))]

def mixedInsertions : List Insertion :=
  [⟨"M", "x"⟩, ⟨"N", "y"⟩]

theorem candidates_mixed :
    candidates mixedTree ⟨"db"⟩ = .ok [⟨"./a.go"⟩, ⟨"./b.go"⟩, ⟨"./c.go"⟩] := by
  have hlisting : mixedTree.listing [] =
      [("a.go", false), ("b.go", false), ("c.go", false)] :=
    listing_of_sorted rfl (by decide +kernel)
  refine candidates_eq_ok_iff.mpr
    ⟨[], eq_ok_of_toOption (by decide +kernel), by decide +kernel, by simp, ?_⟩
  rw [hlisting]
  decide +kernel

/-- The first file is patched, and the second one stays as it is although its first insertion
could be made. -/
theorem mixed_halts :
    ∃ after,
      patch ⟨"db"⟩ mixedInsertions mixedTree =
          (.error (.ambiguousMarker ⟨"./b.go"⟩ "N" [3, 4]), after) ∧
        (∃ location front name back,
          HaltedAt mixedInsertions ⟨"db"⟩ mixedTree after
            (.ambiguousMarker ⟨"./b.go"⟩ "N" [3, 4]) location front name back) ∧
        after.get? ["a.go"] = some (.file (.text "x\nM\ny\nN\n")) ∧
        after.get? ["b.go"] = some (.file (.text "M\nN\nN\n")) ∧
        after.get? ["c.go"] = some (.file (.binary [255])) := by
  have hpatch : patch ⟨"db"⟩ mixedInsertions mixedTree =
      (.error (.ambiguousMarker ⟨"./b.go"⟩ "N" [3, 4]),
        mixedTree.place ["a.go"] (.file (.text "x\nM\ny\nN\n"))) := by
    rw [patch_of_candidates, candidates_mixed]
    exact Prod.ext (eq_error_of_match (by decide +kernel)) (by decide +kernel)
  refine ⟨_, hpatch, ?_, by decide +kernel, by decide +kernel, by decide +kernel⟩
  rcases patch_halts (proper_of_nodes (by decide) rfl) (by decide) hpatch with
    ⟨hnone, -⟩ | hhalted
  · rw [candidates_mixed] at hnone
    cases hnone
  · exact hhalted

end Providers
end GormForge
