import GormForge.Proofs.FileTree.Contents

/-!
# The history of a file

What a file holds after drafts were put at its path, one after the other.

**Input.**  A path, and drafts under any rules, each with or without a header.  What a draft
renders may depend on the tree that it finds.

**Algorithm.**  A draft that is created once is skipped if the path leads to something, and every
other draft is written.  Once a draft was put the path leads to something, so that from then on
only drafts that are written anew have a say.

**Results.**
* `lands_of_put`: what one draft comes to.
* `putEach_of_ifMissing`: drafts that are created once change nothing where something is.
* `settled_putEach`: what drafts of any rules come to, and which of them are skipped.
-/

namespace GormForge
namespace GeneratedFile

open FileTree

/-- What is to be put at a path: the rules for it and how it is rendered. -/
structure Draft (ε : Type) where
  rules : FileRules
  render : FileTree → Except ε String

/-- Put drafts at a path, one after the other, up to the first failure. -/
def putEach {ε : Type} (ofWriteError : WriteError → ε) (path : Path) :
    List (Draft ε) → FileAction ε (List WriteResult)
  | [] => pure []
  | draft :: rest => do
    let result ← put ofWriteError path draft.rules draft.render
    let results ← putEach ofWriteError path rest
    return result :: results

variable {ε : Type}
variable {ofWriteError : WriteError → ε}
variable {path : Path}
variable {draft : Draft ε}
variable {drafts front back : List (Draft ε)}
variable {tree after : FileTree}
variable {location : Location}
variable {result : WriteResult}
variable {results : List WriteResult}

/-! ## One draft -/

/-- What putting a draft comes to. -/
inductive Lands (path : Path) (draft : Draft ε) (tree : FileTree) :
    WriteResult → FileTree → Prop
  | skipped
      (hrule : draft.rules.overwrite = .ifMissing)
      (hexists : tree.pathExists path = true) :
      Lands path draft tree .skipped tree
  | written
      {body : String} {after : FileTree}
      (hopen : ¬ (draft.rules.overwrite = .ifMissing ∧ tree.pathExists path = true))
      (hrender : draft.render tree = .ok body)
      (hstore : store path (some (draft.rules.withHeader body)) tree = (.ok .written, after)) :
      Lands path draft tree .written after

theorem lands_of_put
    (h : put ofWriteError path draft.rules draft.render tree = (.ok result, after)) :
    Lands path draft tree result after := by
  unfold put at h
  obtain ⟨prepared, middle, hview, hstore⟩ := bind_eq_ok_iff.mp h
  obtain ⟨hprepare, rfl⟩ := Prod.mk.inj hview
  rw [adapt_eq_ok_iff] at hstore
  cases prepared with
  | none =>
      obtain ⟨hrule, hexists⟩ := prepare_eq_ok_none_iff.mp hprepare
      rw [store_none] at hstore
      cases hstore
      exact .skipped hrule hexists
  | some content =>
      obtain ⟨hopen, body, hrender, rfl⟩ := prepare_eq_ok_some_iff.mp hprepare
      obtain ⟨rfl, -⟩ := store_some_eq_ok_iff.mp hstore
      exact .written hopen hrender hstore

theorem Lands.eq_skipped_iff
    (h : Lands path draft tree result after) :
    result = .skipped ↔
      draft.rules.overwrite = .ifMissing ∧ tree.pathExists path = true := by
  cases h with
  | skipped hrule hexists => simp [hrule, hexists]
  | written hopen => simp only [hopen, reduceCtorEq]

/-- A draft that is written is what the file holds. -/
theorem Lands.readText
    (h : Lands path draft tree result after)
    (hopen : ¬ (draft.rules.overwrite = .ifMissing ∧ tree.pathExists path = true)) :
    ∃ body, draft.render tree = .ok body ∧
      after.readText path = .ok (draft.rules.withHeader body) := by
  cases h with
  | skipped hrule hexists => exact absurd ⟨hrule, hexists⟩ hopen
  | written _ hrender hstore => exact ⟨_, hrender, (inPlace_store hstore).1⟩

/-- Once a draft was put, its path leads to something. -/
theorem Lands.pathExists
    (h : Lands path draft tree result after) :
    after.pathExists path = true := by
  cases h with
  | skipped _ hexists => exact hexists
  | written _ _ hstore => exact (inPlace_store hstore).pathExists

theorem Lands.grows
    (h : Lands path draft tree result after) :
    Grows (fun _ => True) tree after := by
  cases h with
  | skipped => exact Grows.refl _ _
  | written _ _ hstore =>
      exact grows_of_eq hstore (grows_store path _ tree fun _ _ _ _ => trivial)

/-- Only the file to which the path leads from then on may change. -/
theorem Lands.content?
    (h : Lands path draft tree result after)
    (hother : after.resolve path ≠ .ok location) :
    after.content? location = tree.content? location := by
  cases h with
  | skipped => rfl
  | written _ _ hstore =>
      obtain ⟨place, hres, -⟩ := readText_eq_ok_iff.mp (inPlace_store hstore).1
      refine (grows_of_store hstore hres).content? ?_
      rintro rfl
      exact hother hres

/-! ## Many drafts -/

theorem putEach_cons_eq_ok_iff :
    putEach ofWriteError path (draft :: drafts) tree = (.ok results, after) ↔
      ∃ result rest middle,
        put ofWriteError path draft.rules draft.render tree = (.ok result, middle) ∧
        putEach ofWriteError path drafts middle = (.ok rest, after) ∧
        results = result :: rest := by
  simp only [putEach, bind_eq_ok_iff, pure_apply]
  constructor
  · rintro ⟨result, middle, hput, rest, last, hrest, heq⟩
    cases heq
    exact ⟨result, rest, middle, hput, hrest, rfl⟩
  · rintro ⟨result, rest, middle, hput, hrest, rfl⟩
    exact ⟨result, middle, hput, rest, after, hrest, rfl⟩

theorem putEach_append_eq_ok_iff :
    putEach ofWriteError path (front ++ back) tree = (.ok results, after) ↔
      ∃ first second middle,
        putEach ofWriteError path front tree = (.ok first, middle) ∧
        putEach ofWriteError path back middle = (.ok second, after) ∧
        results = first ++ second := by
  induction front generalizing tree results with
  | nil =>
      constructor
      · intro h
        exact ⟨[], results, tree, rfl, h, rfl⟩
      · rintro ⟨_, _, _, hnone, hback, rfl⟩
        cases hnone
        exact hback
  | cons draft front ih =>
      simp only [List.cons_append, putEach_cons_eq_ok_iff, ih]
      constructor
      · rintro ⟨result, _, middle, hput, ⟨first, second, last, hfront, hback, rfl⟩, rfl⟩
        exact ⟨result :: first, second, last, ⟨result, first, middle, hput, hfront, rfl⟩, hback, rfl⟩
      · rintro ⟨_, second, last, ⟨result, first, middle, hput, hfront, rfl⟩, hback, rfl⟩
        exact ⟨result, first ++ second, middle, hput, ⟨first, second, last, hfront, hback, rfl⟩, rfl⟩

theorem length_putEach
    (h : putEach ofWriteError path drafts tree = (.ok results, after)) :
    results.length = drafts.length := by
  induction drafts generalizing tree results with
  | nil =>
      cases h
      rfl
  | cons draft drafts ih =>
      obtain ⟨result, rest, middle, -, hrest, rfl⟩ := putEach_cons_eq_ok_iff.mp h
      rw [List.length_cons, List.length_cons, ih hrest]

/-- Drafts that are created once change nothing where something is. -/
theorem putEach_of_ifMissing
    (hrules : ∀ draft ∈ drafts, draft.rules.overwrite = .ifMissing)
    (hexists : tree.pathExists path = true)
    (h : putEach ofWriteError path drafts tree = (.ok results, after)) :
    after = tree := by
  induction drafts generalizing tree results with
  | nil =>
      cases h
      rfl
  | cons draft drafts ih =>
      obtain ⟨result, rest, middle, hput, hrest, rfl⟩ := putEach_cons_eq_ok_iff.mp h
      obtain ⟨hrule, hrules⟩ := List.forall_mem_cons.mp hrules
      cases lands_of_put hput with
      | skipped => exact ih hrules hexists hrest
      | written hopen => exact absurd ⟨hrule, hexists⟩ hopen

theorem grows_putEach
    (h : putEach ofWriteError path drafts tree = (.ok results, after)) :
    Grows (fun _ => True) tree after := by
  induction drafts generalizing tree results with
  | nil =>
      cases h
      exact Grows.refl _ _
  | cons draft drafts ih =>
      obtain ⟨result, rest, middle, hput, hrest, rfl⟩ := putEach_cons_eq_ok_iff.mp h
      exact (lands_of_put hput).grows.trans (ih hrest)

/-- Only the file to which the path leads in the end may change. -/
theorem content?_putEach
    (h : putEach ofWriteError path drafts tree = (.ok results, after))
    (hother : after.resolve path ≠ .ok location) :
    after.content? location = tree.content? location := by
  induction drafts generalizing tree results with
  | nil =>
      cases h
      rfl
  | cons draft drafts ih =>
      obtain ⟨result, rest, middle, hput, hrest, rfl⟩ := putEach_cons_eq_ok_iff.mp h
      have hmiddle : middle.resolve path ≠ .ok location :=
        fun hres => hother ((grows_putEach hrest).resolve_ok hres)
      rw [ih hrest, (lands_of_put hput).content? hmiddle]

/-! ## The history -/

/-- What drafts at a path come to.  The tree that a draft finds is the one that the drafts before
it have left. -/
structure Settled (ofWriteError : WriteError → ε) (path : Path) (drafts : List (Draft ε))
    (tree : FileTree) (results : List WriteResult) (after : FileTree) : Prop where
  /-- The last draft that is written anew decides what the file holds. -/
  renewed : ∀ front draft back, drafts = front ++ draft :: back →
    draft.rules.overwrite = .always →
    (∀ later ∈ back, later.rules.overwrite = .ifMissing) →
      ∃ body, draft.render (putEach ofWriteError path front tree).2 = .ok body ∧
        after.readText path = .ok (draft.rules.withHeader body)
  /-- Without such a draft, what was there stays. -/
  kept : (∀ draft ∈ drafts, draft.rules.overwrite = .ifMissing) →
    tree.pathExists path = true → after = tree
  /-- If nothing was there either, the first draft decides. -/
  created : ∀ first rest, drafts = first :: rest →
    (∀ draft ∈ drafts, draft.rules.overwrite = .ifMissing) →
    tree.pathExists path = false →
      ∃ body, first.render tree = .ok body ∧
        after.readText path = .ok (first.rules.withHeader body)
  reported : results.length = drafts.length
  /-- A draft is skipped exactly if it is created once and finds something at the path. -/
  skipped_iff : ∀ front draft back, drafts = front ++ draft :: back →
    (results[front.length]? = some .skipped ↔
      draft.rules.overwrite = .ifMissing ∧
        (putEach ofWriteError path front tree).2.pathExists path = true)
  /-- All other files hold what they held. -/
  elsewhere : ∀ location, after.resolve path ≠ .ok location →
    after.content? location = tree.content? location

/-- What drafts come to that were all put. -/
theorem settled_putEach
    (h : putEach ofWriteError path drafts tree = (.ok results, after)) :
    Settled ofWriteError path drafts tree results after where
  renewed front draft back hdrafts halways hback := by
    subst hdrafts
    obtain ⟨first, second, found, hfront, hrest, rfl⟩ := putEach_append_eq_ok_iff.mp h
    obtain ⟨result, rest, middle, hput, hlater, rfl⟩ := putEach_cons_eq_ok_iff.mp hrest
    have hlands := lands_of_put hput
    obtain rfl := putEach_of_ifMissing hback hlands.pathExists hlater
    rw [hfront]
    exact hlands.readText (by simp [halways])
  kept hrules hexists := putEach_of_ifMissing hrules hexists h
  created first rest hdrafts hrules hmissing := by
    subst hdrafts
    obtain ⟨result, _, middle, hput, hlater, rfl⟩ := putEach_cons_eq_ok_iff.mp h
    have hlands := lands_of_put hput
    obtain rfl := putEach_of_ifMissing (List.forall_mem_cons.mp hrules).2 hlands.pathExists hlater
    exact hlands.readText (by simp [hmissing])
  reported := length_putEach h
  skipped_iff front draft back hdrafts := by
    subst hdrafts
    obtain ⟨first, second, found, hfront, hrest, rfl⟩ := putEach_append_eq_ok_iff.mp h
    obtain ⟨result, rest, middle, hput, -, rfl⟩ := putEach_cons_eq_ok_iff.mp hrest
    rw [hfront, ← length_putEach hfront, List.getElem?_append_right (Nat.le_refl _), Nat.sub_self]
    simpa using (lands_of_put hput).eq_skipped_iff
  elsewhere location hother := content?_putEach h hother

/-- A file that is created, then written anew below a header, and then left alone. -/
def userDrafts : List (Draft WriteError) :=
  [⟨.createOnce, fun _ => .ok "package a\n"⟩, ⟨.generated "// header", fun _ => .ok "package b\n"⟩,
    ⟨⟨.ifMissing, some "// header"⟩, fun _ => .ok "package c\n"⟩]

/-- These drafts end in the second one, and the third one is skipped. -/
theorem user_settled :
    ∃ after,
      putEach id ⟨"db/user.go"⟩ userDrafts {} = (.ok [.written, .written, .skipped], after) ∧
      Settled id ⟨"db/user.go"⟩ userDrafts {} [.written, .written, .skipped] after ∧
      after.readText ⟨"db/user.go"⟩ = .ok "// header\npackage b\n" := by
  obtain ⟨after, hput⟩ : ∃ after,
      putEach id ⟨"db/user.go"⟩ userDrafts {} = (.ok [.written, .written, .skipped], after) :=
    ⟨_, rfl⟩
  have hsettled := settled_putEach hput
  refine ⟨after, hput, hsettled, ?_⟩
  obtain ⟨body, hbody, hread⟩ := hsettled.renewed (userDrafts.take 1) _ (userDrafts.drop 2) rfl rfl
    (by simp [userDrafts])
  cases hbody
  exact hread

end GeneratedFile
end GormForge
