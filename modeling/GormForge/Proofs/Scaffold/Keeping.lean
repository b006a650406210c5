import GormForge.Proofs.Generation.Package
import GormForge.Proofs.Scaffold.Both
import GormForge.Proofs.Scaffold.Declarations

/-!
# What a scaffold leaves alone

What creating a scaffold does to the files that were there before.

**Input.**  A tree in which every node has a name and lies in a directory; a scaffold of any kind
and name, with any templates and any formatter.

**Algorithm.**  Whether the file exists is asked first, and only then the directories above it are
made.  A path that goes up from a directory that is missing leads nowhere at first, and to a file
that was there all along when it is written.

**Results.**
* `render_eq_error_iff`: a scaffold is rejected for its context, its template or its format.
* `create_of_rejects`: a scaffold that is rejected makes nothing, not even a directory.
* `create_keeps`: what a scaffold leaves alone that is skipped, rejected or written.
* `detour_overwrites`: a scaffold that is written over a file of the project.
-/

namespace GormForge

open FileTree

/-- A file that declares a function has a parenthesis in it. -/
theorem Go.DeclaresFunction.mem_paren
    {source name result : String}
    (h : Go.DeclaresFunction source name result) :
    '(' ∈ source.toList := by
  obtain ⟨-, -, params, -, -, front, back, htext, -⟩ := h
  rw [htext]
  simp [Go.functionHead]

namespace Scaffolder

open Providers

variable {scaffolder : Scaffolder}
variable {kind : ScaffoldKind}
variable {name : ScaffoldName}
variable {tree stored after : FileTree}
variable {outcome : ScaffoldOutcome}
variable {above : Location}
variable {text : String}
variable {e : GenerateError}

/-! ## Rejections -/

/-- Why a scaffold is not rendered. -/
inductive Rejects (scaffolder : Scaffolder) (kind : ScaffoldKind) (name : ScaffoldName)
    (tree : FileTree) : GenerateError → Prop
  | context
      {e : GenerateError}
      (hcontext : (scaffolder.contextOf kind name).validate = .error e) :
      Rejects scaffolder kind name tree e
  | template
      {e : GenerateError}
      (hvalid : (scaffolder.contextOf kind name).validate = .ok ())
      (htemplate : scaffolder.library.renderWith tree kind.template
        (scaffolder.contextOf kind name).scope = .error e) :
      Rejects scaffolder kind name tree e
  | format
      {e : GenerateError} {source : String}
      (hvalid : (scaffolder.contextOf kind name).validate = .ok ())
      (hsource : scaffolder.library.renderWith tree kind.template
        (scaffolder.contextOf kind name).scope = .ok source)
      (hformat : Formatter.formatSource scaffolder.formatter (scaffolder.pathOf kind name) source =
        .error e) :
      Rejects scaffolder kind name tree e

theorem render_eq_error_iff :
    scaffolder.render kind name tree = .error e ↔ Rejects scaffolder kind name tree e := by
  simp only [render]
  constructor
  · intro h
    split at h
    · next hcontext =>
        cases h
        exact .context hcontext
    · next hvalid =>
        split at h
        · next htemplate =>
            cases h
            exact .template hvalid htemplate
        · next hsource => exact .format hvalid hsource h
  · rintro (hcontext | ⟨hvalid, htemplate⟩ | ⟨hvalid, hsource, hformat⟩)
    · simp only [hcontext]
    · simp only [hvalid, htemplate]
    · simp only [hvalid, hsource, hformat]

/-- A scaffold that is rejected makes nothing, not even a directory. -/
theorem create_of_rejects
    (hmissing : tree.pathExists (scaffolder.pathOf kind name) = false)
    (h : Rejects scaffolder kind name tree e) :
    scaffolder.create kind name tree = (.error e, tree) := by
  have hprepare : GeneratedFile.prepare (scaffolder.pathOf kind name) FileRules.createOnce
      (scaffolder.render kind name) tree = .error e := by
    simp [GeneratedFile.prepare, hmissing, render_eq_error_iff.mpr h, Except.map]
  have hput : GeneratedFile.put GenerateError.write (scaffolder.pathOf kind name)
      FileRules.createOnce (scaffolder.render kind name) tree = (.error e, tree) := by
    unfold GeneratedFile.put
    exact bind_error (by rw [viewE, hprepare])
  unfold create
  exact bind_error hput

/-! ## Scaffolds that are written -/

/-- A scaffold that was written has been missing, was rendered and stored, and then wired. -/
theorem exists_store_of_written
    (h : scaffolder.create kind name tree = (.ok outcome, after))
    (hwritten : outcome.result = .written) :
    tree.pathExists (scaffolder.pathOf kind name) = false ∧
      ∃ text stored,
        scaffolder.render kind name tree = .ok text ∧
          GeneratedFile.store (scaffolder.pathOf kind name) (some text) tree =
            (.ok .written, stored) ∧
          scaffolder.Wires kind name stored after := by
  cases hexists : tree.pathExists (scaffolder.pathOf kind name) with
  | true =>
      rw [create_of_pathExists hexists] at h
      cases h
      cases hwritten
  | false =>
      refine ⟨rfl, ?_⟩
      cases hrender : scaffolder.render kind name tree with
      | error e =>
          rw [create_of_rejects hexists (render_eq_error_iff.mp hrender)] at h
          cases h
      | ok text =>
          rcases create_of_missing hexists hrender with
            ⟨e, stored, -, herror⟩ | ⟨stored, _, _, hstore, hcreate, -, hwires⟩
          · rw [herror] at h
            cases h
          · rw [hcreate] at h
            cases h
            exact ⟨text, stored, rfl, hstore, hwires⟩

/-- Where a scaffold that was stored stands, and that the files next to it are those that are
wired. -/
theorem exists_above_of_store
    (hname : Path.IsName name.fileName)
    (hstore : GeneratedFile.store (scaffolder.pathOf kind name) (some text) tree =
      (.ok .written, stored)) :
    ∃ above,
      stored.resolve (scaffolder.pathOf kind name) = .ok (above ++ [name.fileName]) ∧
        stored.destination (directoryOf (scaffolder.pathOf kind name)) = .ok above := by
  obtain ⟨location, hres, -⟩ := readText_eq_ok_iff.mp (GeneratedFile.inPlace_store hstore).1
  unfold pathOf at hres ⊢
  obtain ⟨above, hwalk, -, rfl⟩ := resolve_child hname hres
  refine ⟨above, hres, ?_⟩
  rw [destination_directoryOf_child stored hname]
  exact follow_of_walk hwalk

/-- The file at a place lies next to a scaffold that is wired, and holds what it held or that with
the entry of the scaffold's constructor in it. -/
def IsWiredAt (scaffolder : Scaffolder) (kind : ScaffoldKind) (name : ScaffoldName)
    (above place : Location) (tree after : FileTree) : Prop :=
  scaffolder.wire = true ∧
    ∃ other entry,
      place = above ++ [other] ∧ entryOf? kind name = some entry ∧ EntersAt entry place tree after

/-- Wiring grows a tree, and changes files next to the scaffold only. -/
theorem Wires.grows_and_kept
    (hword : Go.isWord name.name = true)
    (hproper : Proper stored)
    (habove : stored.destination (directoryOf (scaffolder.pathOf kind name)) = .ok above)
    (h : scaffolder.Wires kind name stored after) :
    Grows (fun _ => True) stored after ∧
      ∀ place, after.content? place = stored.content? place ∨
        scaffolder.IsWiredAt kind name above place stored after := by
  rcases h with rfl | ⟨entry, _, hwire, hentry, hpatch⟩
  · exact ⟨Grows.refl _ _, fun _ => Or.inl rfl⟩
  have hrefills := refills_patch_of_destination hproper habove hpatch
  refine ⟨hrefills.toGrows.mono fun _ _ => trivial, fun place => ?_⟩
  by_cases hbeside : ∃ other, Path.IsName other ∧ place = above ++ [other]
  · obtain ⟨other, -, hplace⟩ := hbeside
    exact Or.inr ⟨hwire, other, entry, hplace, hentry,
      entersAt_patch (keyLines_entry hword hentry) hpatch place⟩
  · exact Or.inl (content?_congr (hrefills.get?_eq hbeside))

/-- What a scaffold that was written in a directory leaves alone. -/
structure Spares (scaffolder : Scaffolder) (kind : ScaffoldKind) (name : ScaffoldName)
    (above : Location) (tree after : FileTree) : Prop where
  placed : after.resolve (scaffolder.pathOf kind name) = .ok (above ++ [name.fileName])
  /-- The other files keep their contents, up to the entry in those of the directory. -/
  kept : ∀ place content, place ≠ above ++ [name.fileName] →
    tree.content? place = some content →
      after.content? place = some content ∨
        scaffolder.IsWiredAt kind name above place tree after
  /-- No file was written over unless the path goes up and something on the way was missing. -/
  fresh : tree.get? (above ++ [name.fileName]) = none ∨
    (tree.resolve (scaffolder.pathOf kind name) = .error .notFound ∧
      ['.', '.'] ∈ (scaffolder.pathOf kind name).segments)
  /-- The scaffold is skipped from then on. -/
  again : scaffolder.create kind name after =
    (.ok { kind := kind, path := scaffolder.pathOf kind name }, after)

/-- A scaffold that was written spares the files that were there. -/
theorem exists_spares
    (hproper : Proper tree)
    (hclosed : Closed tree)
    (h : scaffolder.create kind name tree = (.ok outcome, after))
    (hwritten : outcome.result = .written) :
    ∃ above, scaffolder.Spares kind name above tree after := by
  obtain ⟨hmissing, text, stored, hrender, hstore, hwires⟩ := exists_store_of_written h hwritten
  have hname := isName_of_render hrender
  have hword := isWord_of_render hrender
  obtain ⟨above, hres, habove⟩ := exists_above_of_store hname hstore
  have hfirst := GeneratedFile.grows_of_store hstore hres
  obtain ⟨hsecond, hbeside⟩ :=
    hwires.grows_and_kept hword (GeneratedFile.proper_store hproper hstore) habove
  have hgrows := (hfirst.mono fun _ _ => trivial).trans hsecond
  have hplaced := hsecond.resolve_ok hres
  refine ⟨above, hplaced, fun place content hplace hcontent => ?_, ?_,
    create_of_pathExists (hwires.holdsText hword hstore).pathExists⟩
  · have hstored : stored.content? place = tree.content? place := hfirst.content? hplace
    rcases hbeside place with hsame | ⟨hwire, other, entry, hat, hentry, henters⟩
    · exact Or.inl (hsame.trans (hstored.trans hcontent))
    · exact Or.inr ⟨hwire, other, entry, hat, hentry, henters.congr hstored.symm rfl⟩
  · rcases hgrows.eq_none_or_notFound hmissing hplaced with hnone | hnot
    · exact Or.inl hnone
    by_cases hup : ['.', '.'] ∈ (scaffolder.pathOf kind name).segments
    · exact Or.inr ⟨hnot, hup⟩
    · exact Or.inl (hclosed.eq_none_of_missing hgrows hname hup hmissing hplaced)

/-- A scaffold whose file exists is skipped and changes nothing.  One that is rejected makes
nothing.  One that is written spares the files that were there, and is skipped from then on. -/
theorem create_keeps
    (scaffolder : Scaffolder)
    (kind : ScaffoldKind)
    (name : ScaffoldName)
    (hproper : Proper tree)
    (hclosed : Closed tree) :
    (tree.pathExists (scaffolder.pathOf kind name) = true →
      scaffolder.create kind name tree =
        (.ok { kind := kind, path := scaffolder.pathOf kind name }, tree)) ∧
    (tree.pathExists (scaffolder.pathOf kind name) = false →
      ∀ e, Rejects scaffolder kind name tree e →
        scaffolder.create kind name tree = (.error e, tree)) ∧
    ∀ outcome after,
      scaffolder.create kind name tree = (.ok outcome, after) → outcome.result = .written →
        ∃ above, scaffolder.Spares kind name above tree after := by
  refine ⟨create_of_pathExists, ?_, ?_⟩
  · intro hmissing e hrejects
    exact create_of_rejects hmissing hrejects
  · intro outcome after hcreate hwritten
    exact exists_spares hproper hclosed hcreate hwritten

/-- A project with a file of services that lists none. -/
def servicesTree : FileTree where
  nodes := [(["internal"], .directory), (["internal", "service"], .directory),
    (["internal", "service", "app.go"], .file (.text (Insertion.serviceMarker ++ "\n")))]

/-- In that project the service `app` is skipped, a name that starts with a digit is rejected, and
the service `user` is written and spares the file of services. -/
theorem services_kept :
    (∃ name, ScaffoldName.parse? "app" = some name ∧
      Scaffolder.create {} .service name servicesTree =
        (.ok { kind := .service, path := ⟨"./internal/service/app.go"⟩ }, servicesTree)) ∧
    (∃ name e, ScaffoldName.parse? "9" = some name ∧
      Scaffolder.create {} .service name servicesTree = (.error e, servicesTree)) ∧
    ∃ name outcome after above, ScaffoldName.parse? "user" = some name ∧
      Scaffolder.create {} .service name servicesTree = (.ok outcome, after) ∧
        outcome.result = .written ∧ Spares {} .service name above servicesTree after := by
  have hproper : Proper servicesTree := proper_of_nodes (by decide) rfl
  have hclosed : Closed servicesTree := closed_of_nodes (by decide)
  refine ⟨⟨⟨none, "App", "app", "a"⟩, by decide +kernel, ?_⟩,
    ⟨⟨none, "9", "9", "9"⟩, ?_⟩, ⟨⟨none, "User", "user", "u"⟩, ?_⟩⟩
  · exact (create_keeps {} .service _ hproper hclosed).1 (by decide +kernel)
  · obtain ⟨e, he⟩ : ∃ e,
        (contextOf {} .service ⟨none, "9", "9", "9"⟩).validate = .error e := ⟨_, rfl⟩
    exact ⟨e, by decide +kernel,
      (create_keeps {} .service _ hproper hclosed).2.1 (by decide +kernel) e (.context he)⟩
  · obtain ⟨text, hrender⟩ : ∃ text, ∀ tree,
        render {} .service ⟨none, "User", "user", "u"⟩ tree = .ok text :=
      exists_render rfl Formatter.accepts_passthrough rfl
    obtain ⟨outcome, after, hcreate, hwritten, -⟩ := create_of_written
      ((put_of_missing (by decide +kernel) (hrender servicesTree)).trans rfl)
    obtain ⟨above, hspares⟩ := (create_keeps {} .service _ hproper hclosed).2.2 outcome after hcreate
      hwritten.written
    exact ⟨outcome, after, above, by decide +kernel, hcreate, hwritten.written, hspares⟩

/-- A project with one file. -/
def keptTree : FileTree where
  nodes := [(["user.go"], .file (.text "package keep\n"))]

/-- The controller `nosuch/../user` is written over the file of the project, which is not seen while
`nosuch` is missing. -/
theorem detour_overwrites :
    ∃ name outcome after,
      ScaffoldName.parse? "nosuch/../user" = some name ∧
        Proper keptTree ∧ Closed keptTree ∧
        here.create .controller name keptTree = (.ok outcome, after) ∧
        outcome.result = .written ∧
        keptTree.content? ["user.go"] = some (.text "package keep\n") ∧
        after.content? ["user.go"] ≠ some (.text "package keep\n") ∧
        ∀ above, ¬ here.IsWiredAt .controller name above ["user.go"] keptTree after := by
  have hparse : ScaffoldName.parse? "nosuch/../user" =
      some ⟨some ⟨"nosuch/../"⟩, "User", "user", "u"⟩ := by
    decide +kernel
  obtain ⟨text, result, hrender, hdeclares⟩ : ∃ text result,
      (∀ tree, here.render .controller ⟨some ⟨"nosuch/../"⟩, "User", "user", "u"⟩ tree = .ok text) ∧
        Go.DeclaresFunction text ("New" ++ "User" ++ "Controller") result :=
    exists_ctor rfl rfl hparse rfl (fun _ => by decide) rfl
  obtain ⟨outcome, after, hcreate, hwritten, hwires⟩ := create_of_written
    ((put_of_missing (by decide +kernel) (hrender keptTree)).trans rfl)
  have hunwired : ¬ here.wire = true := by decide
  rcases hwires with rfl | ⟨_, _, hwire, -⟩
  · refine ⟨_, outcome, _, hparse, proper_of_nodes (by decide) rfl, closed_of_nodes (by decide),
      hcreate, hwritten.written, rfl, ?_, fun _ h => hunwired h.1⟩
    intro hsame
    cases hsame
    exact absurd hdeclares.mem_paren (by decide)
  · exact absurd hwire hunwired

end Scaffolder
end GormForge
