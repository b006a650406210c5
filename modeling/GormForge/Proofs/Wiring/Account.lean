import GormForge.Proofs.FileTree.Contents
import GormForge.Proofs.Wiring.Providers

/-!
# Accounts of patching

How the outcomes of patching and the changes of the provider files belong together.

**Input.**  A proper tree and any insertions.

**Algorithm.**  An outcome that lists a line is replayed by putting its text there as a line of
its own.  Files are patched one after the other, and the outcomes of all of them are given only
if none fails.  Where one fails after another one was written, nothing is listed of what was
written.

**Results.**
* `patchAll_replay`: a patched content is the old one with its outcomes replayed.
* `accounts_patchFiles`: outcomes account for what the files hold after they were patched.
* `Accounts.exists_ne`: where an insertion is listed, a file has changed.
* `accounts_reported_iff`: what is reported accounts for all changes unless patching stops short.
-/

namespace GormForge

/-! ## Replaying outcomes -/

namespace Text

/-- A text with another one as its line of a number, counted from one, that ends the way the
line ends above which it goes. -/
def insertLine (line : Nat) (text cs : List Char) : List Char :=
  let parts := pieces cs
  let ending := if (parts[line - 1]?.bind List.getLast?) = some '\r' then ['\r'] else []
  joinLines (parts.take (line - 1) ++ (text ++ ending) :: parts.drop (line - 1))

/-- A text is longer with one more line. -/
theorem length_lt_insertLine
    (line : Nat)
    (text cs : List Char) :
    cs.length < (insertLine line text cs).length := by
  have hsplit : (pieces cs).take (line - 1) ++ (pieces cs).drop (line - 1) = pieces cs :=
    List.take_append_drop _ _
  unfold insertLine
  simp only
  generalize text ++ _ = whole
  cases hdrop : (pieces cs).drop (line - 1) with
  | nil =>
      rw [hdrop, List.append_nil] at hsplit
      have hconcat := joinLines_append_last (pieces cs) [] whole
      have hne : pieces cs ≠ [] := List.splitOn_ne_nil '\n' cs
      rw [joinLines_append_nil hne, joinLines_pieces, List.nil_append] at hconcat
      rw [hsplit, ← hconcat]
      simp
  | cons next back =>
      rw [hdrop] at hsplit
      rw [length_joinLines_insert, hsplit, joinLines_pieces]
      omega

end Text

namespace PatchOutcome

/-- What a content becomes by an outcome. -/
def replay (content : String) (outcome : PatchOutcome) : String :=
  match outcome.patch with
  | .inserted line => String.ofList (Text.insertLine line outcome.text.toList content.toList)
  | .alreadyPresent => content
  | .noMarker => content

/-- What the file of a path holds after outcomes, some of which may be about it. -/
def replayAll (outcomes : List PatchOutcome) (path : Path) : Content → Content
  | .text s => .text ((outcomes.filter fun outcome => outcome.path = path).foldl replay s)
  | .binary bytes => .binary bytes

/-- An insertion makes a content longer, and no outcome makes it shorter. -/
theorem length_replay
    (content : String)
    (outcome : PatchOutcome) :
    content.toList.length ≤ (replay content outcome).toList.length ∧
      (outcome.patch.isInserted = true →
        content.toList.length < (replay content outcome).toList.length) := by
  unfold replay
  cases outcome.patch with
  | inserted line =>
      have hlt := Text.length_lt_insertLine line outcome.text.toList content.toList
      simp only [String.toList_ofList]
      exact ⟨hlt.le, fun _ => hlt⟩
  | alreadyPresent => exact ⟨le_rfl, fun h => by cases h⟩
  | noMarker => exact ⟨le_rfl, fun h => by cases h⟩

theorem length_foldl_replay
    (outcomes : List PatchOutcome)
    (content : String) :
    content.toList.length ≤ (outcomes.foldl replay content).toList.length ∧
      ((∃ outcome ∈ outcomes, outcome.patch.isInserted = true) →
        content.toList.length < (outcomes.foldl replay content).toList.length) := by
  induction outcomes generalizing content with
  | nil => simp
  | cons outcome rest ih =>
      obtain ⟨hle, hlt⟩ := length_replay content outcome
      obtain ⟨hle', hlt'⟩ := ih (replay content outcome)
      rw [List.foldl_cons]
      refine ⟨hle.trans hle', fun hinserted => ?_⟩
      rcases List.exists_mem_cons_iff .. |>.mp hinserted with hfirst | hlater
      · exact (hlt hfirst).trans_le hle'
      · exact hle.trans_lt (hlt' hlater)

theorem replayAll_append
    (front back : List PatchOutcome)
    (path : Path)
    (content : Content) :
    replayAll (front ++ back) path content =
      replayAll back path (replayAll front path content) := by
  cases content with
  | text s => simp only [replayAll, List.filter_append, List.foldl_append]
  | binary bytes => rfl

theorem map_replayAll
    {outcomes : List PatchOutcome}
    {path : Path}
    (h : ∀ content, replayAll outcomes path content = content)
    (content : Option Content) :
    content.map (replayAll outcomes path) = content := by
  cases content with
  | none => rfl
  | some content => rw [Option.map_some, h]

/-- Outcomes about other files change nothing. -/
theorem replayAll_of_ne
    {outcomes : List PatchOutcome}
    {path : Path}
    (h : ∀ outcome ∈ outcomes, outcome.path ≠ path)
    (content : Content) :
    replayAll outcomes path content = content := by
  have hnone : (outcomes.filter fun outcome => outcome.path = path) = [] := by
    rw [List.filter_eq_nil_iff]
    simpa using h
  cases content with
  | text s => simp [replayAll, hnone]
  | binary bytes => rfl

theorem replayAll_of_quiet
    {outcomes : List PatchOutcome}
    (h : ∀ outcome ∈ outcomes, outcome.patch.isInserted = false)
    (path : Path)
    (content : Content) :
    replayAll outcomes path content = content := by
  have hreplay : ∀ (quiet : List PatchOutcome) (s : String),
      (∀ outcome ∈ quiet, outcome.patch.isInserted = false) → quiet.foldl replay s = s := by
    intro quiet s hquiet
    induction quiet with
    | nil => rfl
    | cons outcome rest ih =>
        obtain ⟨hfirst, hrest⟩ := List.forall_mem_cons.mp hquiet
        have hsame : replay s outcome = s := by
          unfold replay
          cases hpatch : outcome.patch with
          | inserted line =>
              rw [hpatch] at hfirst
              cases hfirst
          | alreadyPresent => rfl
          | noMarker => rfl
        rw [List.foldl_cons, hsame, ih hrest]
  cases content with
  | text s =>
      rw [replayAll, hreplay _ s fun outcome houtcome => h outcome (List.mem_filter.mp houtcome).1]
  | binary bytes => rfl

theorem replayAll_of_eq
    {outcomes : List PatchOutcome}
    {path : Path}
    (h : ∀ outcome ∈ outcomes, outcome.path = path)
    (s : String) :
    replayAll outcomes path (.text s) = .text (outcomes.foldl replay s) := by
  have hall : (outcomes.filter fun outcome => outcome.path = path) = outcomes := by
    rw [List.filter_eq_self]
    simpa using h
  rw [replayAll, hall]

end PatchOutcome

namespace Insertion

open Text

variable {insertion : Insertion}
variable {insertions : List Insertion}
variable {path : Path}
variable {content patched : String}
variable {patch : Patch}
variable {outcomes : List PatchOutcome}

theorem insertLine_eq
    {front back : List (List Char)}
    {marker cs : List Char}
    (h : pieces cs = front ++ marker :: back)
    (insertion : Insertion) :
    insertLine (front.length + 1) insertion.text.toList cs =
      joinLines (front ++ insertion.lineFor marker :: marker :: back) := by
  have hmarker : (front ++ marker :: back)[front.length]? = some marker := by simp
  simp only [insertLine, lineFor, h, Nat.add_sub_cancel, List.take_left, List.drop_left, hmarker,
    Option.bind_some]
  split <;> simp

/-- A patched content is the old one with its outcome replayed. -/
theorem patchContent_replay
    (h : insertion.patchContent path content = .ok (patched, patch)) :
    PatchOutcome.replay content ⟨path, insertion.text, patch⟩ = patched := by
  rcases patchContent_cases h with ⟨-, rfl, rfl⟩ | ⟨-, rfl, rfl, -⟩ |
    ⟨front, marker, back, hparts, -, hpatched, rfl⟩
  · rfl
  · rfl
  · simp only [PatchOutcome.replay]
    rw [insertLine_eq hparts, ← hpatched, String.ofList_toList]

/-- A patched content is the old one with its outcomes replayed. -/
theorem patchAll_replay
    (h : patchAll path insertions content = .ok (patched, outcomes)) :
    outcomes.foldl PatchOutcome.replay content = patched ∧
      ∀ outcome ∈ outcomes, outcome.path = path := by
  induction insertions generalizing content outcomes with
  | nil =>
      cases h
      exact ⟨rfl, by simp⟩
  | cons insertion rest ih =>
      obtain ⟨middle, patch, more, hpatch, hmore, rfl⟩ := patchAll_cons_eq_ok_iff.mp h
      obtain ⟨hreplay, hpaths⟩ := ih hmore
      refine ⟨?_, List.forall_mem_cons.mpr ⟨rfl, hpaths⟩⟩
      rw [List.foldl_cons, patchContent_replay hpatch, hreplay]

end Insertion

/-! ## Accounts -/

theorem Path.child_injective
    {base : Path}
    {name other : String}
    (hname : Path.IsName name)
    (hother : Path.IsName other)
    (h : base.child name = base.child other) :
    name = other := by
  have hsegments := congrArg Path.segments h
  rw [Path.segments_child hname.noSlash, Path.segments_child hother.noSlash] at hsegments
  exact String.toList_inj.mp (List.singleton_inj.mp (List.append_cancel_left hsegments))

namespace Providers

open FileTree

variable {insertions : List Insertion}
variable {outcomes more : List PatchOutcome}
variable {tree before middle after : FileTree}
variable {base target path : Path}
variable {paths : List Path}
variable {location : Location}

/-- Outcomes account for the files of a directory: each outcome is about one of its texts, and
every file holds what it held before with its outcomes replayed. -/
structure Accounts (outcomes : List PatchOutcome) (base : Path) (location : Location)
    (before after : FileTree) : Prop where
  about : ∀ outcome ∈ outcomes, ∃ name text, Path.IsName name ∧
    outcome.path = base.child name ∧ before.content? (location ++ [name]) = some (.text text)
  contents : ∀ name, Path.IsName name →
    after.content? (location ++ [name]) =
      (before.content? (location ++ [name])).map
        (PatchOutcome.replayAll outcomes (base.child name))

theorem Accounts.refl
    (base : Path)
    (location : Location)
    (tree : FileTree) :
    Accounts [] base location tree tree where
  about _ h := by cases h
  contents name _ := (PatchOutcome.map_replayAll (PatchOutcome.replayAll_of_ne (by simp)) _).symm

theorem Accounts.trans
    (first : Accounts outcomes base location before middle)
    (second : Accounts more base location middle after) :
    Accounts (outcomes ++ more) base location before after where
  about outcome houtcome := by
    rcases List.mem_append.mp houtcome with hin | hin
    · exact first.about outcome hin
    · obtain ⟨name, text, hname, hpath, hmiddle⟩ := second.about outcome hin
      rw [first.contents name hname, Option.map_eq_some_iff] at hmiddle
      obtain ⟨content, hbefore, hreplay⟩ := hmiddle
      cases content with
      | text old => exact ⟨name, old, hname, hpath, hbefore⟩
      | binary bytes => cases hreplay
  contents name hname := by
    rw [second.contents name hname, first.contents name hname, Option.map_map]
    congr 1
    funext content
    exact (PatchOutcome.replayAll_append outcomes more (base.child name) content).symm

/-- Accounts depend on the contents of the files. -/
theorem accounts_congr
    {other : FileTree}
    (h : ∀ name, before.content? (location ++ [name]) = other.content? (location ++ [name])) :
    Accounts outcomes base location before after ↔ Accounts outcomes base location other after := by
  constructor
  · rintro ⟨habout, hcontents⟩
    simp only [h] at habout hcontents
    exact ⟨habout, hcontents⟩
  · rintro ⟨habout, hcontents⟩
    simp only [← h] at habout hcontents
    exact ⟨habout, hcontents⟩

/-- The outcomes of a file account for it. -/
theorem accounts_patchFile
    {name : String}
    (hheld : Holds tree base location)
    (hname : Path.IsName name)
    (h : patchFile insertions (base.child name) tree = (.ok outcomes, after)) :
    Accounts outcomes base location tree after := by
  rcases patchFile_cases h with ⟨-, e, he⟩ |
    ⟨content, patched, _, place, hok, hres, hnode, hpatch, rfl⟩
  · cases he
  cases hok
  obtain rfl := hheld.eq_of_resolve_child hname hres
  obtain ⟨hreplay, hpaths⟩ := Insertion.patchAll_replay hpatch
  have hbefore := content?_eq_some_iff.mpr hnode
  constructor
  · exact fun outcome houtcome => ⟨name, content, hname, hpaths outcome houtcome, hbefore⟩
  · intro other hother
    rw [content?_place (by simp)]
    split
    · next hsame =>
        obtain rfl := List.singleton_inj.mp (List.append_cancel_left hsame)
        rw [hbefore, Option.map_some, PatchOutcome.replayAll_of_eq hpaths, hreplay]
    · next hne =>
        have hapart : ∀ outcome ∈ outcomes, outcome.path ≠ base.child other := by
          intro outcome houtcome hpath
          rw [hpaths outcome houtcome] at hpath
          exact hne (by rw [Path.child_injective hname hother hpath])
        exact (PatchOutcome.map_replayAll (PatchOutcome.replayAll_of_ne hapart) _).symm

/-- The outcomes of files account for them. -/
theorem accounts_patchFiles
    (hheld : Holds tree base location)
    (hpaths : ∀ path ∈ paths, ∃ name, Path.IsName name ∧ path = base.child name)
    (h : patchFiles insertions paths tree = (.ok outcomes, after)) :
    Accounts outcomes base location tree after := by
  induction paths generalizing tree outcomes with
  | nil =>
      cases h
      exact Accounts.refl base location _
  | cons path rest ih =>
      obtain ⟨first, middle, more, hfirst, hrest, rfl⟩ := patchFiles_cons_eq_ok_iff.mp h
      obtain ⟨name, hname, rfl⟩ := hpaths path (List.mem_cons_self ..)
      exact (accounts_patchFile hheld hname hfirst).trans
        (ih (hheld.grows (refills_of_patchFile hfirst).toGrows)
          (fun other hother => hpaths other (List.mem_cons_of_mem _ hother)) hrest)

/-- Outcomes that list no insertion account for files that stayed as they were. -/
theorem Accounts.eq_of_quiet
    {name : String}
    (h : Accounts outcomes base location before after)
    (hquiet : ∀ outcome ∈ outcomes, outcome.patch.isInserted = false)
    (hname : Path.IsName name) :
    after.content? (location ++ [name]) = before.content? (location ++ [name]) := by
  rw [h.contents name hname]
  exact PatchOutcome.map_replayAll (PatchOutcome.replayAll_of_quiet hquiet _) _

/-- Outcomes that list no insertion may be left out. -/
theorem Accounts.forget
    (h : Accounts outcomes base location before after)
    (hquiet : ∀ outcome ∈ outcomes, outcome.patch.isInserted = false) :
    Accounts [] base location before after where
  about _ hin := by cases hin
  contents name hname := by
    rw [h.eq_of_quiet hquiet hname]
    exact (Accounts.refl base location before).contents name hname

/-- Where an insertion is listed, a file has changed. -/
theorem Accounts.exists_ne
    (h : Accounts outcomes base location before after)
    (hinserted : ∃ outcome ∈ outcomes, outcome.patch.isInserted = true) :
    ∃ name, Path.IsName name ∧
      after.content? (location ++ [name]) ≠ before.content? (location ++ [name]) := by
  obtain ⟨outcome, houtcome, hpatch⟩ := hinserted
  obtain ⟨name, text, hname, hpath, hbefore⟩ := h.about outcome houtcome
  refine ⟨name, hname, fun hsame => ?_⟩
  rw [h.contents name hname, hbefore, Option.map_some, PatchOutcome.replayAll, Option.some.injEq,
    Content.text.injEq] at hsame
  have hin : outcome ∈ outcomes.filter fun outcome => outcome.path = base.child name :=
    List.mem_filter.mpr ⟨houtcome, by simpa using hpath⟩
  have hlonger := (PatchOutcome.length_foldl_replay _ text).2 ⟨outcome, hin, hpatch⟩
  rw [hsame] at hlonger
  exact Nat.lt_irrefl _ hlonger

/-- The files stayed as they were exactly if no insertion is listed. -/
theorem Accounts.nil_iff
    (h : Accounts outcomes base location before after) :
    Accounts [] base location before after ↔
      ∀ outcome ∈ outcomes, outcome.patch.isInserted = false := by
  refine ⟨fun hnothing outcome houtcome => ?_, h.forget⟩
  by_contra hinserted
  obtain ⟨name, hname, hne⟩ := h.exists_ne ⟨outcome, houtcome, by simpa using hinserted⟩
  exact hne (hnothing.eq_of_quiet (by simp) hname)

/-! ## Reports -/

/-- What is reported of patching: nothing, if it failed. -/
def reported (result : Except WireError (List PatchOutcome)) : List PatchOutcome :=
  result.toOption.getD []

/-- Patching stops short: a file cannot be patched after something was inserted into others. -/
def StopsShort (target : Path) (insertions : List Insertion) (tree : FileTree) : Prop :=
  ∃ front path back outcomes middle e,
    candidates tree target = .ok (front ++ path :: back) ∧
      patchFiles insertions front tree = (.ok outcomes, middle) ∧
      (∃ outcome ∈ outcomes, outcome.patch.isInserted = true) ∧
      patchFile insertions path middle = (.error e, middle)

/-- Without insertions patching does not stop short. -/
theorem not_stopsShort_nil
    (target : Path)
    (tree : FileTree) :
    ¬ StopsShort target [] tree := by
  rintro ⟨front, path, back, outcomes, middle, e, -, hfront, ⟨outcome, houtcome, -⟩, -⟩
  have hnone : ∀ {paths : List Path} {tree after : FileTree} {outcomes : List PatchOutcome},
      patchFiles [] paths tree = (.ok outcomes, after) → outcomes = [] := by
    intro paths
    induction paths with
    | nil =>
        intro tree after outcomes h
        cases h
        rfl
    | cons path rest ih =>
        intro tree after outcomes h
        obtain ⟨first, middle, more, hfirst, hrest, rfl⟩ := patchFiles_cons_eq_ok_iff.mp h
        obtain ⟨content, patched, -, hpatch, -⟩ := reads_patchFile hfirst
        cases hpatch
        rw [ih hrest]
        rfl
  rw [hnone hfront] at houtcome
  cases houtcome

/-- With a single candidate patching does not stop short. -/
theorem not_stopsShort_of_single
    (h : candidates tree target = .ok [path]) :
    ¬ StopsShort target insertions tree := by
  rintro ⟨front, other, back, outcomes, middle, e, hpaths, hfront, ⟨outcome, houtcome, -⟩, -⟩
  rw [h] at hpaths
  cases front with
  | nil =>
      cases hfront
      cases houtcome
  | cons => simp at hpaths

/-- Patching files fails at one of them and leaves those before it patched. -/
theorem patchFiles_eq_error
    {e : WireError}
    (h : patchFiles insertions paths tree = (.error e, after)) :
    ∃ front path back outcomes,
      paths = front ++ path :: back ∧
        patchFiles insertions front tree = (.ok outcomes, after) ∧
        patchFile insertions path after = (.error e, after) := by
  induction paths generalizing tree with
  | nil => cases h
  | cons path rest ih =>
      rw [patchFiles_cons] at h
      split at h
      · next hfirst =>
          cases h
          rcases patchFile_cases hfirst with ⟨rfl, -⟩ | ⟨_, _, _, _, hok, -⟩
          · exact ⟨[], path, rest, [], rfl, rfl, hfirst⟩
          · cases hok
      · next first middle hfirst =>
          split at h
          · next hrest =>
              cases h
              obtain ⟨front, other, back, outcomes, rfl, hfront, hother⟩ := ih hrest
              exact ⟨path :: front, other, back, first ++ outcomes, rfl,
                patchFiles_cons_eq_ok_iff.mpr ⟨first, middle, outcomes, hfirst, hfront, rfl⟩,
                hother⟩
          · cases h

/-- What is patched when patching stops short is what was patched before the file that fails. -/
theorem StopsShort.exists_patch
    (h : StopsShort target insertions tree) :
    ∃ front path back outcomes middle e,
      candidates tree target = .ok (front ++ path :: back) ∧
        patchFiles insertions front tree = (.ok outcomes, middle) ∧
        (∃ outcome ∈ outcomes, outcome.patch.isInserted = true) ∧
        patch target insertions tree = (.error e, middle) := by
  obtain ⟨front, path, back, outcomes, middle, e, hcandidates, hfront, hinserted, hfile⟩ := h
  refine ⟨front, path, back, outcomes, middle, e, hcandidates, hfront, hinserted, ?_⟩
  rw [patch_of_candidates, hcandidates]
  simp only [patchFiles_append _ hfront, patchFiles_cons, hfile]

/-- What is reported of patching accounts for all changes of the candidates, unless patching
stops short. -/
theorem accounts_reported_iff
    {result : Except WireError (List PatchOutcome)}
    (hproper : Proper tree)
    (habove : tree.destination (directoryOf target) = .ok location)
    (h : patch target insertions tree = (result, after)) :
    Accounts (reported result) (directoryOf target) location tree after ↔
      ¬ StopsShort target insertions tree := by
  cases hcandidates : candidates tree target with
  | error e =>
      rw [patch_of_candidates, hcandidates] at h
      cases h
      refine ⟨fun _ hstops => ?_, fun _ => Accounts.refl _ _ _⟩
      obtain ⟨_, _, _, _, _, _, hpaths, -⟩ := hstops
      rw [hcandidates] at hpaths
      cases hpaths
  | ok paths =>
      obtain ⟨found, hfound, hheld⟩ := exists_holds_of_candidates hcandidates
      rw [habove] at hfound
      cases hfound
      have haccounts : ∀ {front outcomes middle}, front ⊆ paths →
          patchFiles insertions front tree = (.ok outcomes, middle) →
          Accounts outcomes (directoryOf target) location tree middle := fun hsub =>
        accounts_patchFiles hheld fun path hpath =>
          exists_name_of_mem_candidates hproper hcandidates (hsub hpath)
      have hpatch : patchFiles insertions paths tree = (result, after) := by
        rw [← h, patch_of_candidates, hcandidates]
      cases result with
      | ok outcomes =>
          refine ⟨fun _ hstops => ?_, fun _ => haccounts (List.Subset.refl _) hpatch⟩
          obtain ⟨_, _, _, _, _, _, -, -, -, hfails⟩ := hstops.exists_patch
          rw [h] at hfails
          cases hfails
      | error e =>
          constructor
          · intro hnothing hstops
            obtain ⟨front, path, back, done, middle, e', hpaths, hfront,
              ⟨outcome, houtcome, hinserted⟩, hfails⟩ := hstops.exists_patch
            rw [hcandidates] at hpaths
            rw [h] at hfails
            cases hpaths
            cases hfails
            have hquiet := (haccounts (List.subset_append_left ..) hfront).nil_iff.mp hnothing
            rw [hquiet outcome houtcome] at hinserted
            cases hinserted
          · intro hnot
            obtain ⟨front, path, back, done, rfl, hfront, hfile⟩ := patchFiles_eq_error hpatch
            refine (haccounts (List.subset_append_left ..) hfront).nil_iff.mpr ?_
            intro outcome houtcome
            by_contra hinserted
            exact hnot ⟨front, path, back, done, after, e, hcandidates, hfront,
              ⟨outcome, houtcome, by simpa using hinserted⟩, hfile⟩

end Providers
end GormForge
