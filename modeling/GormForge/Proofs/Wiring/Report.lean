import GormForge.Proofs.Generation.Again
import GormForge.Proofs.Generation.Phases
import GormForge.Proofs.Scaffold.Both
import GormForge.Proofs.Wiring.Account

/-!
# Reports of wiring

Whether the report of a run, or of a new scaffold, accounts for what became of the provider files.

**Input.**  A run with any schedule, or a scaffold, that wires, on a proper tree.

**Algorithm.**  Nothing is written to a provider file before the wiring.  The report lists the
outcomes of all provider files, or a warning only if one of them could not be patched.

**Results.**
* `Generation.Emits`: the tree from which a run comes to its wiring.
* `Scaffolder.create_eq_ok`: what a scaffold that was created has done, and what it reports.
* `wiring_accounts_iff`: a report accounts for all changes unless patching stops short.
* `clash_goes_unreported`: a run that changes a provider file and reports that none is updated.
-/

namespace GormForge

open FileTree

/-! ## Runs -/

namespace Generation

open Providers

variable {job : GenerationJob}
variable {tree made emitted after : FileTree}
variable {directory : Path}
variable {above : Location}
variable {schedule : List RunMove}
variable {report : GenerationReport}

/-- The tree from which a schedule comes to its provider files: the one it started with, if there
are no models, or the one in which the emission has stored all files. -/
inductive Emits (job : GenerationJob) (tree : FileTree) (schedule : List RunMove)
    (directory : Path) : FileTree → Prop
  | nothing
      (hmodels : job.collected.models = []) :
      Emits job tree schedule directory tree
  | files
      {front back : List RunMove} {emission : Emission.State} {files : List EmittedFile}
      (hschedule : schedule = front ++ .next :: back)
      (hfront : (RunState.starting tree).run job front = some (.emitting directory emission))
      (hreturned : emission.returned? = some (.ok files)) :
      Emits job tree schedule directory emission.tree

/-- A run that ends well has come to its provider files. -/
theorem RunState.exists_emits
    (hdirectory : job.settings.outputDirectory tree.workingDirectory = .ok directory)
    (hrun : (RunState.starting tree).run job schedule = some (.ended (.ok report) after)) :
    ∃ emitted, Emits job tree schedule directory emitted := by
  cases schedule with
  | nil => cases hrun
  | cons move rest =>
      obtain ⟨middle, hstep, hrest⟩ := RunState.run_cons_eq_some_iff.mp hrun
      cases step_eq_some_iff.mp hstep with
      | begin =>
          by_cases hmodels : job.collected.models = []
          · exact ⟨tree, .nothing hmodels⟩
          rcases hmade : createDirectories directory tree with ⟨e | u, made⟩
          · have hne : job.collected.models.isEmpty = false := by simpa using hmodels
            simp only [begin, hne, hdirectory, hmade] at hrest
            cases (RunState.run_ended hrest).2
          · have hbegun : Begun job tree directory made := ⟨hmodels, hdirectory, hmade⟩
            rw [hbegun.begin_eq] at hrest
            obtain ⟨moves, last, returned, back, rfl, hmoves, hreturned, hend⟩ :=
              RunState.exists_emission_run hrest
            cases returned with
            | error e => cases (RunState.run_ended hend).2
            | ok files => exact ⟨last.tree, .files rfl (hbegun.run_emission hmoves) hreturned⟩

/-- Emitting files leaves those beside the package as they were. -/
theorem Emits.content?_beside
    (h : Emits job tree schedule directory emitted)
    (hproper : Proper tree)
    (habove : tree.destination (directoryOf directory) = .ok above)
    (name : String) :
    emitted.content? (above ++ [name]) = tree.content? (above ++ [name]) := by
  cases h with
  | nothing => rfl
  | files _ hfront _ =>
      obtain ⟨made, hbegun, hreach⟩ := (Reaches.start.run hfront).follows
      obtain ⟨location, hplaced⟩ := hbegun.exists_placed hproper
      exact hplaced.content?_beside hreach habove name

/-- The wiring of a run that ends well is what patching all provider files at once comes to. -/
theorem RunState.reported_of_settle
    {files : List EmittedFile}
    (hwire : job.settings.wire = true)
    (hrun : (settle job directory tree (.ok files)).run job schedule =
      some (.ended (.ok report) after)) :
    ∃ result, patch directory job.insertions tree = (result, after) ∧
      report.wiring = reported result := by
  have hend := RunState.ended_of_settle hrun
  rw [if_pos hwire] at hend
  rcases hpatch : patch directory job.insertions tree with ⟨e | outcomes, last⟩
  · rw [hpatch] at hend
    cases hend
    exact ⟨_, rfl, job.collects.wiring⟩
  · rw [hpatch] at hend
    cases hend
    exact ⟨_, rfl, rfl⟩

/-- The report of a run accounts for all changes of the provider files unless patching them stops
short. -/
theorem Emits.accounts_iff
    (h : Emits job tree schedule directory emitted)
    (hproper : Proper tree)
    (hwire : job.settings.wire = true)
    (habove : tree.destination (directoryOf directory) = .ok above)
    (hrun : (RunState.starting tree).run job schedule = some (.ended (.ok report) after)) :
    Accounts report.wiring (directoryOf directory) above tree after ↔
      ¬ StopsShort directory job.insertions emitted := by
  have hbeside := h.content?_beside hproper habove
  cases h with
  | nothing hmodels =>
      have hnone : job.insertions = [] := by
        simp [GenerationJob.insertions, GenerationJob.models, hmodels, insertionsOf]
      have hends : Ends job tree (.ok report) after := (Reaches.start.run hrun).follows
      rw [hnone]
      refine ⟨fun _ => not_stopsShort_nil directory tree, fun _ => ?_⟩
      cases hends with
      | nothing _ =>
          rw [job.collects.wiring]
          exact Accounts.refl _ _ _
      | emitted hbegun => exact absurd hmodels hbegun.models
      | wired hbegun => exact absurd hmodels hbegun.models
      | unwired hbegun => exact absurd hmodels hbegun.models
  | @files front back emission files hschedule hfront hreturned =>
      obtain ⟨made, hbegun, hreach⟩ := (Reaches.start.run hfront).follows
      obtain ⟨location, hplaced⟩ := hbegun.exists_placed hproper
      rw [hschedule, RunState.run_append hfront,
        RunState.run_step (step_eq_some_iff.mpr (.settle hreturned))] at hrun
      obtain ⟨result, hpatch, hwiring⟩ := RunState.reported_of_settle hwire hrun
      rw [← hplaced.destination_of_reaches hreach] at habove
      rw [hwiring, ← accounts_congr hbeside]
      exact accounts_reported_iff (hreach.proper hplaced.settles hplaced.proper) habove hpatch

/-- What follows an emission that succeeded is part of a run, too. -/
theorem Begun.exists_wired_run
    {last : FileTree}
    {files : List EmittedFile}
    (h : Begun job tree directory made)
    (hemission : Emission.Returns (job.emission directory) made (.ok files) last)
    (hwire : job.settings.wire = true) :
    ∃ schedule,
      (RunState.starting tree).run job schedule =
          some (endOf job files [] (patch directory job.insertions last)) ∧
        Emits job tree schedule directory last := by
  obtain ⟨front, emission, hfront, hreturned, rfl⟩ := h.exists_run hemission
  obtain ⟨back, state, hback, hended⟩ :=
    exists_run_of_settle job directory emission.tree (.ok files)
  refine ⟨front ++ .next :: back, ?_, .files rfl hfront hreturned⟩
  rw [RunState.run_append hfront,
    RunState.run_step (step_eq_some_iff.mpr (.settle hreturned)), hback]
  cases state with
  | ended result after => rw [RunState.ended_of_settle hback, if_pos hwire]
  | starting | emitting | wiring => cases hended

end Generation

/-! ## Scaffolds -/

namespace Scaffolder

open Providers

variable {scaffolder : Scaffolder}
variable {kind : ScaffoldKind}
variable {name : ScaffoldName}
variable {tree stored after : FileTree}
variable {outcome : ScaffoldOutcome}
variable {above : Location}

/-- What a scaffold that was created has done to the tree: its file was stored or left alone, and
if it was stored, the entry of its constructor was patched in and the outcomes reported. -/
theorem create_eq_ok
    (hwire : scaffolder.wire = true)
    (h : scaffolder.create kind name tree = (.ok outcome, after)) :
    ∃ stored,
      GeneratedFile.put GenerateError.write (scaffolder.pathOf kind name) FileRules.createOnce
          (scaffolder.render kind name) tree = (.ok outcome.result, stored) ∧
        ((outcome.wiring = [] ∧ after = stored ∧
            (outcome.result = .written → entryOf? kind name = none)) ∨
          ∃ entry result,
            outcome.result = .written ∧
              entryOf? kind name = some entry ∧
              Providers.patch (scaffolder.pathOf kind name) [entry] stored = (result, after) ∧
              outcome.wiring = reported result) := by
  unfold create at h
  obtain ⟨result, stored, hput, hrest⟩ := bind_eq_ok_iff.mp h
  rw [hwire] at hrest
  cases result with
  | skipped =>
      cases hrest
      exact ⟨_, hput, Or.inl ⟨rfl, rfl, fun hwritten => by cases hwritten⟩⟩
  | written =>
      cases hprovider : kind.provider? with
      | none =>
          rw [hprovider] at hrest
          cases hrest
          exact ⟨_, hput, Or.inl ⟨rfl, rfl, fun _ => by simp [entryOf?, hprovider]⟩⟩
      | some provider =>
          obtain ⟨marker, ending⟩ := provider
          rw [hprovider] at hrest
          rcases hpatch : Providers.patch (scaffolder.pathOf kind name)
            [.provider marker ("New" ++ name.name ++ ending)] stored with ⟨result, last⟩
          obtain ⟨warnings, hout⟩ := wireOutcome_eq
            { kind := kind, path := scaffolder.pathOf kind name, result := .written } hpatch
          simp only at hrest
          rw [hout] at hrest
          cases hrest
          exact ⟨stored, hput, Or.inr ⟨.provider marker ("New" ++ name.name ++ ending), result, rfl,
            by simp [entryOf?, hprovider], hpatch, rfl⟩⟩

/-- Storing a scaffold writes its file only. -/
theorem grows_put
    {result : WriteResult}
    (hproper : Proper tree)
    (habove : tree.destination (directoryOf (scaffolder.pathOf kind name)) = .ok above)
    (hput : GeneratedFile.put GenerateError.write (scaffolder.pathOf kind name)
      FileRules.createOnce (scaffolder.render kind name) tree = (.ok result, stored)) :
    Proper stored ∧ Grows (· = above ++ [name.fileName]) tree stored := by
  unfold GeneratedFile.put at hput
  obtain ⟨prepared, middle, hview, hstore⟩ := bind_eq_ok_iff.mp hput
  rw [adapt_eq_ok_iff] at hstore
  unfold viewE at hview
  obtain ⟨hprepare, rfl⟩ := Prod.mk.inj hview
  cases prepared with
  | none =>
      cases hstore
      exact ⟨hproper, Grows.refl _ _⟩
  | some text =>
      obtain ⟨-, source, hrender, -⟩ := GeneratedFile.prepare_eq_ok_some_iff.mp hprepare
      have hgrows : Grows (· = above ++ [name.fileName]) tree
          (GeneratedFile.store (scaffolder.pathOf kind name) (some text) tree).2 := by
        refine GeneratedFile.grows_store _ _ tree fun later location hlater hres => ?_
        have hdest := destination_of_resolve hres
        rw [hlater.destination] at hdest
        exact location_eq_child (isName_of_render hrender) hdest habove
      rw [hstore] at hgrows
      exact ⟨GeneratedFile.proper_store hproper hstore, hgrows⟩

/-- The report of a new scaffold accounts for all changes of the provider files since the file
was stored, unless patching them stops short. -/
theorem accounts_iff
    (hproper : Proper tree)
    (hwire : scaffolder.wire = true)
    (habove : tree.destination (directoryOf (scaffolder.pathOf kind name)) = .ok above)
    (h : scaffolder.create kind name tree = (.ok outcome, after)) :
    ∃ stored,
      GeneratedFile.put GenerateError.write (scaffolder.pathOf kind name) FileRules.createOnce
          (scaffolder.render kind name) tree = (.ok outcome.result, stored) ∧
        (∀ other, other ≠ name.fileName →
          stored.content? (above ++ [other]) = tree.content? (above ++ [other])) ∧
        (Accounts outcome.wiring (directoryOf (scaffolder.pathOf kind name)) above stored after ↔
          ¬ (outcome.result = .written ∧ ∃ entry, entryOf? kind name = some entry ∧
            StopsShort (scaffolder.pathOf kind name) [entry] stored)) := by
  obtain ⟨stored, hput, hrest⟩ := create_eq_ok hwire h
  obtain ⟨hstored, hgrows⟩ := grows_put hproper habove hput
  refine ⟨stored, hput, fun other hother => hgrows.content? ?_, ?_⟩
  · intro heq
    exact hother (List.singleton_inj.mp (List.append_cancel_left heq))
  · rcases hrest with ⟨hnone, rfl, hentry⟩ | ⟨entry, result, hwritten, hentry, hpatch, hwiring⟩
    · rw [hnone]
      refine ⟨fun _ => ?_, fun _ => Accounts.refl _ _ _⟩
      rintro ⟨hwritten, entry, hsome, -⟩
      rw [hentry hwritten] at hsome
      cases hsome
    · rw [← hgrows.destination] at habove
      rw [hwiring, accounts_reported_iff hstored habove hpatch, hwritten, hentry]
      simp

end Scaffolder

/-! ## Both -/

open Providers

/-- On a proper tree, the report of a run, or of a new scaffold, accounts for all changes of the
provider files if and only if patching them does not stop short: the outcomes it lists are about
these files, and replaying them turns what the files held before into what they hold after. -/
theorem wiring_accounts_iff
    {tree after : FileTree}
    {above : Location}
    (hproper : Proper tree) :
    (∀ (job : GenerationJob) (schedule : List Generation.RunMove) (directory : Path)
        (report : GenerationReport),
      job.settings.wire = true →
      job.settings.outputDirectory tree.workingDirectory = .ok directory →
      tree.destination (directoryOf directory) = .ok above →
      (Generation.RunState.starting tree).run job schedule = some (.ended (.ok report) after) →
        (∃ emitted, Generation.Emits job tree schedule directory emitted) ∧
          ∀ emitted, Generation.Emits job tree schedule directory emitted →
            (∀ name, emitted.content? (above ++ [name]) = tree.content? (above ++ [name])) ∧
              (Accounts report.wiring (directoryOf directory) above tree after ↔
                ¬ StopsShort directory job.insertions emitted)) ∧
    ∀ (scaffolder : Scaffolder) (kind : ScaffoldKind) (name : ScaffoldName)
        (outcome : ScaffoldOutcome),
      scaffolder.wire = true →
      tree.destination (directoryOf (scaffolder.pathOf kind name)) = .ok above →
      scaffolder.create kind name tree = (.ok outcome, after) →
        ∃ stored,
          GeneratedFile.put GenerateError.write (scaffolder.pathOf kind name) FileRules.createOnce
              (scaffolder.render kind name) tree = (.ok outcome.result, stored) ∧
            (∀ other, other ≠ name.fileName →
              stored.content? (above ++ [other]) = tree.content? (above ++ [other])) ∧
            (Accounts outcome.wiring (directoryOf (scaffolder.pathOf kind name)) above
                stored after ↔
              ¬ (outcome.result = .written ∧ ∃ entry, Scaffolder.entryOf? kind name = some entry ∧
                StopsShort (scaffolder.pathOf kind name) [entry] stored)) := by
  constructor
  · intro job schedule directory report hwire hdirectory habove hrun
    refine ⟨Generation.RunState.exists_emits hdirectory hrun, fun emitted hemits => ?_⟩
    exact ⟨hemits.content?_beside hproper habove, hemits.accounts_iff hproper hwire habove hrun⟩
  · intro scaffolder kind name outcome hwire habove hcreate
    exact Scaffolder.accounts_iff hproper hwire habove hcreate

/-! ## One provider file, and two -/

open Generation

/-- A service for users in an empty project. -/
def userService : ScaffoldName := ⟨none, "User", "user", "u"⟩

/-- The project with the service. -/
def serviceTree (text : String) : FileTree where
  nodes := [(["internal"], .directory), (["internal", "service"], .directory),
    (["internal", "service", "user.go"], .file (.text text))]

theorem candidates_service
    (text : String) :
    candidates (serviceTree text) ⟨"./internal/service/user.go"⟩ =
      .ok [⟨"./internal/service/user.go"⟩] := by
  have hlisting : (serviceTree text).listing ["internal", "service"] = [("user.go", false)] :=
    listing_of_sorted rfl (by simp)
  refine candidates_eq_ok_iff.mpr ⟨["internal", "service"], rfl, rfl, by simp, ?_⟩
  rw [hlisting]
  decide +kernel

/-- The reports of a run for one table and of a scaffold account for all changes. -/
theorem users_accounted :
    (∃ schedule report,
      (RunState.starting usersTree).run usersJob schedule =
          some (.ended (.ok report) usersPatched) ∧
        (∃ outcome ∈ report.wiring, outcome.patch.isInserted = true) ∧
        Accounts report.wiring (directoryOf ⟨"db/db"⟩) ["db"] usersTree usersPatched) ∧
    ∃ outcome after text,
      Scaffolder.create {} .service userService {} = (.ok outcome, after) ∧
        outcome.result = .written ∧
        Accounts outcome.wiring (directoryOf ⟨"./internal/service/user.go"⟩)
          ["internal", "service"] (serviceTree text) after := by
  constructor
  · obtain ⟨files, hemission⟩ := returns_users
    obtain ⟨schedule, hrun, hemits⟩ := begun_users.exists_wired_run hemission rfl
    rw [patch_users] at hrun
    have hproper : Proper usersTree := proper_of_nodes (by decide) rfl
    have hall := (wiring_accounts_iff hproper).1 usersJob schedule ⟨"db/db"⟩ _ rfl rfl rfl hrun
    exact ⟨schedule, _, hrun, ⟨_, List.mem_singleton_self _, rfl⟩,
      (hall.2 _ hemits).2.mpr (not_stopsShort_of_single candidates_users)⟩
  · obtain ⟨text, hrender⟩ : ∃ text, ∀ tree,
        Scaffolder.render {} .service userService tree = .ok text :=
      Scaffolder.exists_render rfl Formatter.accepts_passthrough rfl
    have hput : GeneratedFile.put GenerateError.write (Scaffolder.pathOf {} .service userService)
        FileRules.createOnce (Scaffolder.render {} .service userService) {} =
          (.ok .written, serviceTree text) :=
      (Scaffolder.put_of_missing rfl (hrender {})).trans rfl
    obtain ⟨outcome, after, hcreate, hwritten, -⟩ := Scaffolder.create_of_written hput
    have hproper : Proper {} := proper_of_nodes (by decide) rfl
    obtain ⟨stored, hstored, -, hiff⟩ :=
      (wiring_accounts_iff hproper).2 {} .service userService outcome rfl rfl hcreate
    obtain ⟨-, rfl⟩ := Prod.mk.inj (hput.symm.trans hstored)
    refine ⟨outcome, after, text, hcreate, hwritten.written, hiff.mpr ?_⟩
    rintro ⟨-, entry, -, hshort⟩
    exact not_stopsShort_of_single (candidates_service text) hshort

/-- A second provider file, which has the marker of repositories on two lines. -/
def clashTree : FileTree :=
  usersTree.place ["db", "cli.go"]
    (.file (.text (Insertion.repositoryMarker ++ "\n" ++ Insertion.repositoryMarker ++ "\n")))

def clashMade : FileTree :=
  clashTree.place ["db", "db"] .directory

def clashEmitted : FileTree :=
  (clashMade.place ["db", "db", "user_gen.go"] (.file (.text (generatedHeader ++ "\na")))).place
    ["db", "db", "user.go"] (.file (.text "b"))

def clashPatched : FileTree :=
  clashEmitted.place ["db", "app.go"]
    (.file (.text ("    db.NewUserDb,\n" ++ Insertion.repositoryMarker ++ "\n")))

theorem begun_clash :
    Begun usersJob clashTree ⟨"db/db"⟩ clashMade where
  models := by simp [models_users]
  named := rfl
  created := rfl

theorem returns_clash :
    ∃ files,
      Emission.Returns (usersJob.emission ⟨"db/db"⟩) clashMade (.ok files) clashEmitted :=
  returns_of_emit (by decide +kernel) (by decide +kernel)

theorem candidates_clash :
    candidates clashEmitted ⟨"db/db"⟩ = .ok [⟨"db/app.go"⟩, ⟨"db/cli.go"⟩] := by
  have hlisting : clashEmitted.listing ["db"] =
      [("app.go", false), ("cli.go", false), ("db", true)] :=
    listing_of_sorted rfl (by decide +kernel)
  refine candidates_eq_ok_iff.mpr
    ⟨["db"], eq_ok_of_toOption (by decide +kernel), by decide +kernel, by simp, ?_⟩
  rw [hlisting]
  decide +kernel

theorem patch_clash :
    patch ⟨"db/db"⟩ usersJob.insertions clashEmitted =
      (.error (.ambiguousMarker ⟨"db/cli.go"⟩ Insertion.repositoryMarker [1, 2]),
        clashPatched) := by
  rw [patch_of_candidates, candidates_clash, insertions_users]
  exact Prod.ext (eq_error_of_match (by decide +kernel)) (by decide +kernel)

/-- A run that enters a repository into one provider file and fails at the next one reports that
the provider files are not updated, and no outcome for the first one. -/
theorem clash_goes_unreported :
    ∃ schedule report after,
      (RunState.starting clashTree).run usersJob schedule = some (.ended (.ok report) after) ∧
        report.wiring = [] ∧
        report.warnings = ["DI file not updated: marker appears on lines 1, 2 of 'db/cli.go'"] ∧
        clashTree.content? ["db", "app.go"] = some (.text (Insertion.repositoryMarker ++ "\n")) ∧
        after.content? ["db", "app.go"] =
          some (.text ("    db.NewUserDb,\n" ++ Insertion.repositoryMarker ++ "\n")) := by
  obtain ⟨files, hemission⟩ := returns_clash
  obtain ⟨schedule, hrun, -⟩ := begun_clash.exists_wired_run hemission rfl
  rw [patch_clash] at hrun
  refine ⟨schedule, _, clashPatched, hrun, ?_, ?_, rfl, ?_⟩
  · simp only [unwired, GenerationJob.reportWith, usersJob.collects.wiring]
  · have hwarnings : usersJob.collected.report.warnings = [] := by decide +kernel
    simp only [unwired, GenerationJob.reportWith, hwarnings, List.nil_append]
    decide +kernel
  · exact (content?_place (by decide)).trans (if_pos rfl)

end GormForge
