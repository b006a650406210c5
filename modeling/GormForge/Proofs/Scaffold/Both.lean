import GormForge.CommandLine.Command
import GormForge.Proofs.Scaffold.Create

/-!
# A controller and its service

When a controller and a service of one name come to stand side by side.

**Input.**  A name whose two contexts are valid, and a project that holds neither file.

**Algorithm.**  The controller is made first.  Without a directory each of the two goes into the
directory of its kind; a directory in the name takes the place of both, and with them of the only
difference between the two paths.

**Results.**
* `create_default`: what making one scaffold in the directory of its kind changes.
* `createsBoth_iff`: both are made unless the name has a directory.
* `skips_service`: if it has one, the service is skipped for the controller.
-/

namespace GormForge

/-! ## Places -/

/-- A path of two names below a directory. -/
theorem Path.join_slash
    {first second : String}
    (base : Path)
    (hfirst : IsName first)
    (hsecond : IsName second) :
    base.join ⟨first ++ "/" ++ second⟩ = (base.child first).child second := by
  have hrelative : isAbsolute ⟨first ++ "/" ++ second⟩ = false := by
    have hnot := isAbsolute_of_noSlash hfirst.noSlash
    obtain ⟨c, cs, hcs⟩ := List.exists_cons_of_ne_nil hfirst.ne_nil
    unfold isAbsolute at hnot ⊢
    rw [hcs] at hnot
    simpa [hcs] using hnot
  have hchild : (base.child first).child second =
      ⟨(base.child first).text ++ "/" ++ second⟩ := by
    rw [child, join, isAbsolute_of_noSlash hsecond.noSlash, isEmpty_text_child hfirst,
      endsInSlash_child hfirst]
    rfl
  rw [hchild, child, join, join, hrelative, isAbsolute_of_noSlash hfirst.noSlash]
  simp only [Bool.false_eq_true, if_false]
  split <;> simp [String.append_assoc]

theorem ScaffoldKind.isName_name
    (kind : ScaffoldKind) :
    Path.IsName kind.name := by
  cases kind <;> decide

theorem ScaffoldKind.byteLength_name
    (kind : ScaffoldKind) :
    Text.byteLength kind.name.toList ≤ FileTree.maxNameBytes := by
  cases kind <;> decide

namespace Scaffolder

open FileTree

variable {scaffolder : Scaffolder}
variable {kind : ScaffoldKind}
variable {name : ScaffoldName}
variable {tree middle after : FileTree}
variable {root location : Location}
variable {text : String}

theorem isName_internal :
    Path.IsName "internal" := by
  decide

/-- Where the scaffolds of a kind lie in a project at a location. -/
def placeOf (root : Location) (kind : ScaffoldKind) : Location :=
  root ++ ["internal"] ++ [kind.name]

/-- Without a directory a scaffold goes into the directory of its kind. -/
theorem pathOf_default
    (scaffolder : Scaffolder)
    (hnone : name.directory = none)
    (hkind : kind ≠ .cache) :
    scaffolder.pathOf kind name =
      ((scaffolder.root.child "internal").child kind.name).child name.fileName := by
  have hdefault : kind.defaultDirectory = ⟨"internal" ++ "/" ++ kind.name⟩ := by
    cases kind <;> first | rfl | exact absurd rfl hkind
  unfold pathOf
  rw [hnone, Option.getD_none, hdefault, Path.join_slash _ isName_internal kind.isName_name]

/-- Where the file of a scaffold lies, if it is in reach. -/
theorem eq_of_resolve_pathOf
    (hnone : name.directory = none)
    (hkind : kind ≠ .cache)
    (hword : Go.isWord name.name = true)
    (hroot : tree.destination scaffolder.root = .ok root)
    (hres : tree.resolve (scaffolder.pathOf kind name) = .ok location) :
    location = placeOf root kind ++ [name.fileName] := by
  rw [pathOf_default scaffolder hnone hkind] at hres
  obtain ⟨found, hfound, rfl⟩ := exists_destination_child (ScaffoldName.isName_fileName hword)
    (destination_of_resolve hres)
  obtain rfl := eq_of_destination_child_child isName_internal kind.isName_name hroot hfound
  rfl

/-- Scaffolds of different kinds have different paths. -/
theorem name_eq_of_pathOf_eq
    {other : ScaffoldKind}
    (hnone : name.directory = none)
    (hkind : kind ≠ .cache)
    (hother : other ≠ .cache)
    (hword : Go.isWord name.name = true)
    (h : scaffolder.pathOf kind name = scaffolder.pathOf other name) :
    kind.name = other.name := by
  have hfile := (ScaffoldName.isName_fileName hword).noSlash
  rw [pathOf_default scaffolder hnone hkind, pathOf_default scaffolder hnone hother] at h
  have hsegments := congrArg Path.segments h
  simp only [Path.segments_child hfile, Path.stem_child (ScaffoldKind.isName_name _)] at hsegments
  exact String.toList_inj.mp (by simpa using hsegments)

theorem isWord_of_validate
    (h : (scaffolder.contextOf kind name).validate = .ok ()) :
    Go.isWord name.name = true := by
  by_contra hword
  have hexported : Go.isExportedWord name.name = false := by
    simp [Go.isExportedWord, hword]
  simp [ScaffoldContext.validate, contextOf, hexported] at h

/-- Only names that make a Go identifier are rendered. -/
theorem isWord_of_render
    (h : scaffolder.render kind name tree = .ok text) :
    Go.isWord name.name = true := by
  simp only [render] at h
  split at h
  · cases h
  · next hvalid => exact isWord_of_validate hvalid

theorem isName_of_render
    (h : scaffolder.render kind name tree = .ok text) :
    Path.IsName name.fileName :=
  ScaffoldName.isName_fileName (isWord_of_render h)

/-! ## One of them -/

/-- A scaffold was made in the directory of its kind, and nothing else was touched. -/
structure Made (scaffolder : Scaffolder) (kind : ScaffoldKind) (name : ScaffoldName)
    (text : String) (root : Location) (tree after : FileTree) : Prop where
  holds : scaffolder.HoldsText kind name text after
  proper : Proper after
  grows : Grows (fun place => ∃ other, place = placeOf root kind ++ [other]) tree after
  elsewhere : ∀ {location},
    location ≠ root ++ ["internal"] → location ≠ placeOf root kind →
      (∀ other, location ≠ placeOf root kind ++ [other]) →
        after.get? location = tree.get? location

/-- Storing a scaffold in the directory of its kind. -/
theorem made_store
    {stored : FileTree}
    {result : WriteResult}
    (hnone : name.directory = none)
    (hkind : kind ≠ .cache)
    (hword : Go.isWord name.name = true)
    (hproper : Proper tree)
    (hroot : Holds tree scaffolder.root root)
    (hstore : GeneratedFile.store (scaffolder.pathOf kind name) (some text) tree =
      (.ok result, stored)) :
    Holds stored ((scaffolder.root.child "internal").child kind.name) (placeOf root kind) ∧
      scaffolder.Made kind name text root tree stored := by
  have hpath := pathOf_default scaffolder hnone hkind
  have hfile := ScaffoldName.isName_fileName hword
  have hgrows : Grows (fun place => ∃ other, place = placeOf root kind ++ [other]) tree
      (GeneratedFile.store (scaffolder.pathOf kind name) (some text) tree).2 := by
    refine GeneratedFile.grows_store _ _ tree fun later place hlater hres => ?_
    have hdestination := hroot.destination
    rw [← hlater.destination] at hdestination
    exact ⟨_, eq_of_resolve_pathOf hnone hkind hword hdestination hres⟩
  rw [hstore] at hgrows
  have hproper' := GeneratedFile.proper_store hproper hstore
  have hread := (GeneratedFile.inPlace_store hstore).1
  rw [hpath] at hstore
  refine ⟨GeneratedFile.holds_store_child_child hroot isName_internal kind.isName_name hfile hstore,
    Or.inl hread, hproper', hgrows, fun hinner hdir hother => ?_⟩
  exact GeneratedFile.get?_store_child_child hroot isName_internal kind.isName_name hfile hstore
    hinner hdir (hother _)

/-- Wiring a scaffold writes files next to it only. -/
theorem Made.wires
    {stored : FileTree}
    (h : scaffolder.Made kind name text root tree stored)
    (hnone : name.directory = none)
    (hkind : kind ≠ .cache)
    (hword : Go.isWord name.name = true)
    (hheld : Holds stored ((scaffolder.root.child "internal").child kind.name)
      (placeOf root kind))
    (hholds : scaffolder.HoldsText kind name text after)
    (hwires : scaffolder.Wires kind name stored after) :
    scaffolder.Made kind name text root tree after := by
  rcases hwires with rfl | ⟨entry, result, -, -, hpatch⟩
  · exact h
  rw [pathOf_default scaffolder hnone hkind] at hpatch
  have hrefills := Providers.refills_patch h.proper hheld kind.isName_name
    (ScaffoldName.isName_fileName hword) hpatch
  refine ⟨hholds, h.proper.refills hrefills ?_, ?_, ?_⟩
  · rintro _ ⟨other, hother, rfl⟩
    have hplace : Location.IsProper (placeOf root kind) :=
      h.proper.named (by simp [hheld.directory])
    exact isProper_append hplace hother
  · exact h.grows.trans (hrefills.toGrows.mono fun _ ⟨other, _, hplace⟩ => ⟨other, hplace⟩)
  · intro location hinner hdir hother
    rw [hrefills.get?_eq fun ⟨other, _, hplace⟩ => hother other hplace]
    exact h.elsewhere hinner hdir hother

/-- Making one scaffold in the directory of its kind. -/
theorem create_default
    (hnone : name.directory = none)
    (hkind : kind ≠ .cache)
    (hword : Go.isWord name.name = true)
    (hproper : Proper tree)
    (hroot : Holds tree scaffolder.root root)
    (hmissing : tree.pathExists (scaffolder.pathOf kind name) = false)
    (hrender : scaffolder.render kind name tree = .ok text) :
    (∃ e stored, scaffolder.create kind name tree = (.error (.write e), stored)) ∨
      ∃ outcome after, scaffolder.create kind name tree = (.ok outcome, after) ∧
        scaffolder.IsWritten kind name outcome ∧
        scaffolder.Made kind name text root tree after := by
  rcases create_of_missing hmissing hrender with ⟨e, stored, -, herror⟩ |
    ⟨stored, outcome, after, hstore, hcreate, hwritten, hwires⟩
  · exact Or.inl ⟨e, stored, herror⟩
  · obtain ⟨hheld, hmade⟩ := made_store hnone hkind hword hproper hroot hstore
    exact Or.inr ⟨outcome, after, hcreate, hwritten,
      hmade.wires hnone hkind hword hheld (hwires.holdsText hword hstore) hwires⟩

/-! ## Both -/

/-- Create the scaffolds of a target, one after the other. -/
def createAll (scaffolder : Scaffolder) (target : CommandLine.ScaffoldTarget)
    (name : ScaffoldName) : FileAction GenerateError (List ScaffoldOutcome) :=
  target.kinds.mapM fun kind => scaffolder.create kind name

theorem createAll_both
    (scaffolder : Scaffolder)
    (name : ScaffoldName) :
    scaffolder.createAll .both name = (do
      let first ← scaffolder.create .controller name
      let second ← scaffolder.create .service name
      return [first, second]) := by
  simp [createAll, CommandLine.ScaffoldTarget.kinds]

/-- Both a controller and a service were written, to different files, and both files hold what
was rendered. -/
structure WroteBoth (scaffolder : Scaffolder) (name : ScaffoldName) (tree : FileTree)
    (controller service : ScaffoldOutcome) (after : FileTree) : Prop where
  created : scaffolder.createAll .both name tree = (.ok [controller, service], after)
  controller_written : scaffolder.IsWritten .controller name controller
  service_written : scaffolder.IsWritten .service name service
  paths_ne : controller.path ≠ service.path
  controller_holds : ∃ text, scaffolder.render .controller name tree = .ok text ∧
    scaffolder.HoldsText .controller name text after
  service_holds : ∃ text, scaffolder.render .service name tree = .ok text ∧
    scaffolder.HoldsText .service name text after

/-- The controller and the service of a name are made. -/
def CreatesBoth (scaffolder : Scaffolder) (name : ScaffoldName) (tree : FileTree) : Prop :=
  ∃ controller service after, scaffolder.WroteBoth name tree controller service after

/-- A project without the files that are to be made, into which every text can be written. -/
structure Ready (scaffolder : Scaffolder) (target : CommandLine.ScaffoldTarget)
    (name : ScaffoldName) (tree : FileTree) : Prop where
  library : scaffolder.library = .builtin
  formatter : scaffolder.formatter.Accepts
  valid : ∀ kind ∈ target.kinds, (scaffolder.contextOf kind name).validate = .ok ()
  proper : Proper tree
  closed : Closed tree
  /-- The root of the project is a directory. -/
  root : ∃ location, Holds tree scaffolder.root location
  missing : ∀ kind ∈ target.kinds, tree.pathExists (scaffolder.pathOf kind name) = false
  /-- The file system refuses nothing, like a directory where a file has its name. -/
  writable : ∀ e after, scaffolder.createAll target name tree ≠ (.error (.write e), after)

section Ready

variable {target : CommandLine.ScaffoldTarget}

theorem Ready.exists_render
    (h : scaffolder.Ready target name tree)
    (hkind : kind ∈ target.kinds) :
    ∃ text, ∀ tree, scaffolder.render kind name tree = .ok text :=
  Scaffolder.exists_render h.library h.formatter (h.valid kind hkind)

theorem Ready.isWord
    (h : scaffolder.Ready target name tree)
    (hkind : kind ∈ target.kinds) :
    Go.isWord name.name = true :=
  isWord_of_validate (h.valid kind hkind)

theorem controller_mem_both :
    ScaffoldKind.controller ∈ CommandLine.ScaffoldTarget.both.kinds := by
  decide

theorem service_mem_both :
    ScaffoldKind.service ∈ CommandLine.ScaffoldTarget.both.kinds := by
  decide

end Ready

/-- Without wiring both are written if what is rendered can be stored. -/
theorem createAll_both_ne_error
    (hwire : scaffolder.wire = false)
    (hfirst : ∀ tree, ∃ text, scaffolder.render .controller name tree = .ok text)
    (hsecond : ∀ tree, ∃ text, scaffolder.render .service name tree = .ok text)
    (hmissing : tree.pathExists (scaffolder.pathOf .controller name) = false)
    (hstores : ∀ text, ∃ stored,
      GeneratedFile.store (scaffolder.pathOf .controller name) (some text) tree =
          (.ok .written, stored) ∧
        ∀ other, ∃ last,
          GeneratedFile.store (scaffolder.pathOf .service name) (some other) stored =
            (.ok .written, last))
    (e : WriteError)
    (after : FileTree) :
    scaffolder.createAll .both name tree ≠ (.error (.write e), after) := by
  obtain ⟨first, hfirst⟩ := hfirst tree
  obtain ⟨stored, hstored, hlast⟩ := hstores first
  rw [createAll_both]
  rcases create_of_missing hmissing hfirst with
    ⟨_, _, hfail, -⟩ | ⟨_, controller, middle, hstore, hcreate, -, hwires⟩
  · rw [hstored] at hfail
    cases hfail
  rw [hstored] at hstore
  cases hstore
  obtain rfl : middle = stored := by
    rcases hwires with heq | ⟨_, _, hon, -⟩
    · exact heq
    · rw [hwire] at hon
      cases hon
  rw [bind_ok hcreate]
  obtain ⟨second, hsecond⟩ := hsecond middle
  obtain ⟨last, hlast⟩ := hlast second
  cases hexists : middle.pathExists (scaffolder.pathOf .service name) with
  | true =>
      rw [bind_ok (create_of_pathExists hexists), pure_apply]
      intro h
      cases h
  | false =>
      rcases create_of_missing hexists hsecond with
        ⟨_, _, hfail, -⟩ | ⟨_, service, final, -, hcreate', -, -⟩
      · rw [hlast] at hfail
        cases hfail
      · rw [bind_ok hcreate', pure_apply]
        intro h
        cases h

/-- A project in the working directory, whose scaffolds are not wired. -/
def here : Scaffolder where
  wire := false

/-- The empty project is ready for a controller and its service if these can be stored. -/
theorem ready_here
    (hvalid : ∀ kind ∈ CommandLine.ScaffoldTarget.both.kinds,
      (here.contextOf kind name).validate.isOk = true)
    (hmissing : ∀ kind ∈ CommandLine.ScaffoldTarget.both.kinds,
      ({} : FileTree).pathExists (here.pathOf kind name) = false)
    (hstores : ∀ text, ∃ stored,
      GeneratedFile.store (here.pathOf .controller name) (some text) {} = (.ok .written, stored) ∧
        ∀ other, ∃ last,
          GeneratedFile.store (here.pathOf .service name) (some other) stored =
            (.ok .written, last)) :
    here.Ready .both name {} := by
  have hformatter : here.formatter.Accepts := Formatter.accepts_passthrough
  have hvalid : ∀ kind ∈ CommandLine.ScaffoldTarget.both.kinds,
      (here.contextOf kind name).validate = .ok () := by
    intro kind hkind
    obtain ⟨⟨⟩, hvalid⟩ := exists_of_isOk (hvalid kind hkind)
    exact hvalid
  obtain ⟨first, hfirst⟩ := exists_render rfl hformatter (hvalid _ controller_mem_both)
  obtain ⟨second, hsecond⟩ := exists_render rfl hformatter (hvalid _ service_mem_both)
  exact {
    library := rfl
    formatter := hformatter
    valid := hvalid
    proper := proper_of_nodes (fun _ hentry => by cases hentry) rfl
    closed := fun location name h => by simp [get?, Keyed.get?] at h
    root := ⟨[], rfl, rfl⟩
    missing := hmissing
    writable := createAll_both_ne_error rfl (fun tree => ⟨first, hfirst tree⟩)
      (fun tree => ⟨second, hsecond tree⟩) (hmissing _ controller_mem_both) hstores }

/-- Without a directory both are made. -/
theorem createsBoth_of_default
    (hready : scaffolder.Ready .both name tree)
    (hnone : name.directory = none) :
    scaffolder.CreatesBoth name tree := by
  obtain ⟨root, hroot⟩ := hready.root
  have hword := hready.isWord controller_mem_both
  have hfile := ScaffoldName.isName_fileName hword
  obtain ⟨first, hfirst⟩ := hready.exists_render controller_mem_both
  obtain ⟨second, hsecond⟩ := hready.exists_render service_mem_both
  rcases create_default hnone (by decide) hword hready.proper hroot
    (hready.missing _ controller_mem_both) (hfirst tree) with
    ⟨e, stored, herror⟩ | ⟨controller, middle, hcreate, hwritten, hmade⟩
  · refine absurd ?_ (hready.writable e stored)
    rw [createAll_both, bind_error herror]
  -- the service is still missing when its turn comes
  have hroot' := hroot.grows hmade.grows
  have hmissing : middle.pathExists (scaffolder.pathOf .service name) = false := by
    rw [pathOf_default _ hnone (by decide)]
    refine pathExists_child_child_eq_false hready.closed hroot isName_internal (by decide)
      (ScaffoldKind.isName_name _) (ScaffoldKind.byteLength_name _) hfile hmade.grows ?_ ?_
    · refine hmade.elsewhere ?_ ?_ ?_ <;> simp [placeOf, ScaffoldKind.name]
    · rw [← pathOf_default _ hnone (by decide)]
      exact hready.missing _ service_mem_both
  rcases create_default hnone (by decide) hword hmade.proper hroot' hmissing (hsecond middle) with
    ⟨e, stored, herror⟩ | ⟨service, after, hcreate', hwritten', hmade'⟩
  · refine absurd ?_ (hready.writable e stored)
    rw [createAll_both, bind_ok hcreate, bind_error herror]
  refine ⟨controller, service, after, ?_, hwritten, hwritten', ?_, ⟨first, hfirst tree, ?_⟩,
    ⟨second, hsecond tree, hmade'.holds⟩⟩
  · rw [createAll_both, bind_ok hcreate, bind_ok hcreate']
    rfl
  · rw [hwritten.path_eq, hwritten'.path_eq]
    intro heq
    exact absurd (name_eq_of_pathOf_eq hnone (by decide) (by decide) hword heq) (by decide)
  · -- the service goes into another directory
    refine hmade.holds.grows hmade'.grows ?_
    rintro location hres ⟨other, hplace⟩
    rw [eq_of_resolve_pathOf hnone (by decide) hword hroot'.destination hres] at hplace
    simp [placeOf, ScaffoldKind.name] at hplace

/-- With a directory both scaffolds have one path. -/
theorem pathOf_directory
    (scaffolder : Scaffolder)
    {directory : Path}
    (h : name.directory = some directory)
    (kind other : ScaffoldKind) :
    scaffolder.pathOf kind name = scaffolder.pathOf other name := by
  simp [pathOf, h]

/-- If the name has a directory, the service is skipped for the controller. -/
theorem skips_service
    {directory : Path}
    (hready : scaffolder.Ready .both name tree)
    (hdirectory : name.directory = some directory) :
    ∃ controller text after,
      scaffolder.createAll .both name tree =
          (.ok [controller, { kind := .service, path := controller.path, result := .skipped }],
            after) ∧
        scaffolder.IsWritten .controller name controller ∧
        scaffolder.render .controller name tree = .ok text ∧
        scaffolder.HoldsText .controller name text after := by
  have hword := hready.isWord controller_mem_both
  obtain ⟨text, htext⟩ := hready.exists_render controller_mem_both
  rcases create_of_missing (hready.missing _ controller_mem_both) (htext tree) with
    ⟨e, stored, -, herror⟩ | ⟨stored, controller, middle, hstore, hcreate, hwritten, hwires⟩
  · refine absurd ?_ (hready.writable e stored)
    rw [createAll_both, bind_error herror]
  have hholds := hwires.holdsText hword hstore
  have hpath := pathOf_directory scaffolder hdirectory .service .controller
  have hskip : scaffolder.create .service name middle =
      (.ok { kind := .service, path := controller.path, result := .skipped }, middle) := by
    rw [create_of_pathExists (by rw [hpath]; exact hholds.pathExists), hpath, hwritten.path_eq]
  refine ⟨controller, text, middle, ?_, hwritten, htext tree, hholds⟩
  rw [createAll_both, bind_ok hcreate, bind_ok hskip]
  rfl

/-- A controller and its service are both made unless the name has a directory. -/
theorem createsBoth_iff
    (hready : scaffolder.Ready .both name tree) :
    scaffolder.CreatesBoth name tree ↔ name.directory = none := by
  constructor
  · rintro ⟨controller, service, after, hboth⟩
    cases hdirectory : name.directory with
    | none => rfl
    | some directory =>
        refine absurd ?_ hboth.paths_ne
        rw [hboth.controller_written.path_eq, hboth.service_written.path_eq]
        exact pathOf_directory _ hdirectory _ _
  · exact createsBoth_of_default hready

/-- The controller and the service of `user` in an empty project. -/
theorem user_createsBoth :
    ∃ name, ScaffoldName.parse? "user" = some name ∧
      here.Ready .both name {} ∧ here.CreatesBoth name {} := by
  have hready : here.Ready .both ⟨none, "User", "user", "u"⟩ {} :=
    ready_here (by decide +kernel) (by decide +kernel)
      fun _ => ⟨_, rfl, fun _ => ⟨_, rfl⟩⟩
  exact ⟨⟨none, "User", "user", "u"⟩, by decide +kernel, hready, (createsBoth_iff hready).mpr rfl⟩

/-- The service of `admin/user` is skipped for the controller. -/
theorem admin_user_skips_service :
    ∃ name, ScaffoldName.parse? "admin/user" = some name ∧
      here.Ready .both name {} ∧ ¬ here.CreatesBoth name {} ∧
        ∃ controller after, here.createAll .both name {} =
          (.ok [controller, { kind := .service, path := controller.path, result := .skipped }],
            after) := by
  have hready : here.Ready .both ⟨some ⟨"admin/"⟩, "User", "user", "u"⟩ {} :=
    ready_here (by decide +kernel) (by decide +kernel)
      fun _ => ⟨_, rfl, fun _ => ⟨_, rfl⟩⟩
  obtain ⟨controller, _, after, hcreated, -⟩ := skips_service hready rfl
  refine ⟨⟨some ⟨"admin/"⟩, "User", "user", "u"⟩, by decide +kernel, hready, ?_,
    controller, after, hcreated⟩
  rintro ⟨controller, service, after, hboth⟩
  refine hboth.paths_ne ?_
  rw [hboth.controller_written.path_eq, hboth.service_written.path_eq]
  exact pathOf_directory _ rfl _ _

end Scaffolder
end GormForge
