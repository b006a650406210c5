import GormForge.Proofs.Generation.Layout

/-!
# Running again

A run after a run that succeeded changes nothing.

**Input.**  Two runs of one job, the second on the tree that the first one left.

**Algorithm.**  After the first run the output directory is there, every file of queries holds
what would be written to it, every file for queries written by hand exists, and every provider
file that is patched before the wiring stops has nothing left to insert.  A run on such a tree
keeps it as it is, step by step.

**Results.**
* `Ends.rested`: a run that succeeds leaves such a tree, also when its wiring failed.
* `Rested.tree_eq`: a run on such a tree changes nothing, in any of its states.
* `Reaches.again`: the second run succeeds and changes nothing.
-/

namespace GormForge

open FileTree

/-! ## Preparing again -/

namespace Emitter

variable {emitter : Emitter}
variable {directory : Path}
variable {model : GoStruct}
variable {tree other : FileTree}

/-- Preparing the queries depends on the tree through their template only. -/
theorem prepareFile_queries_congr
    (h : emitter.library.overrideOf? tree ModelFile.queries.kind =
      emitter.library.overrideOf? other ModelFile.queries.kind) :
    emitter.prepareFile directory model .queries tree =
      emitter.prepareFile directory model .queries other := by
  have hrender : emitter.render directory model .queries tree =
      emitter.render directory model .queries other := render_congr h
  simp only [prepareFile, GeneratedFile.prepare, ModelFile.rules, FileRules.generated,
    reduceCtorEq, false_and, if_false, hrender]

/-- A file for queries written by hand is left alone once it is there. -/
theorem prepareFile_custom_of_pathExists
    (h : tree.pathExists (ModelFile.custom.pathIn directory model) = true) :
    emitter.prepareFile directory model .custom tree = .ok none :=
  GeneratedFile.prepare_eq_ok_none_iff.mpr ⟨rfl, h⟩

end Emitter

/-! ## After a run -/

namespace Generation

variable {job : GenerationJob}
variable {tree made last after : FileTree}
variable {directory : Path}
variable {location : Location}
variable {model : GoStruct}
variable {files : List EmittedFile}
variable {state : RunState}
variable {report : GenerationReport}

/-- The provider entries of a package that can be declared are a batch. -/
theorem isBatch_insertions
    (hpackage : Go.isPackageName job.settings.goPackage = true) :
    Insertion.IsBatch job.insertions := by
  refine Insertion.isBatch_repositories fun insertion hinsertion => ?_
  obtain ⟨model, hmodel, rfl⟩ := List.mem_map.mp hinsertion
  have hdraws := GenerationJob.draws hmodel
  refine ⟨model.packageName, model.structName, rfl, ?_, ?_⟩
  · rw [hdraws.package]
    exact Go.notMem_of_isWord (Go.isWord_of_isPackageName hpackage) (by decide)
  · exact Go.notMem_of_isWord (Go.isWord_of_isExportedWord hdraws.exported) (by decide)

/-- Templates that lie apart read the same after a run has written. -/
theorem overrideOf?_eq
    {seen : FileTree}
    (hapart : job.settings.library.Apart after directory)
    (hdest : after.destination directory = .ok location)
    (hrefills : Refills (fun place =>
      (job.emission directory).Fills location place ∨ job.Wires location place) seen after)
    (kind : Template.Kind) :
    job.settings.library.overrideOf? after kind = job.settings.library.overrideOf? seen kind := by
  refine Template.Library.overrideOf?_refills hrefills ?_ fun path => hapart.clear kind
  intro path place hlibrary hres hwritten
  have htemplate := destination_of_resolve hres
  rw [← hrefills.destination] at htemplate
  obtain ⟨found, hfollow, rfl⟩ := destination_child (ModelFile.isName_key kind) htemplate
  rw [← destination_eq_follow] at hfollow
  rcases hwritten with ⟨model, -, file, heq⟩ | ⟨above, name, rfl, -, heq⟩
  · have hkey := (List.append_inj' heq rfl).2
    rw [List.singleton_inj] at hkey
    exact ModelFile.nameFor_ne_key file model kind hkey.symm
  · have hfound := (List.append_inj' heq rfl).1
    refine hapart.beside hlibrary hfollow hdest ?_
    rw [hfound, List.dropLast_concat]

/-- What was stored by a run is in place, and would be prepared in the same way again. -/
theorem prepared_again
    (hapart : job.settings.library.Apart after directory)
    (hdest : after.destination directory = .ok location)
    (hheld : Holds last directory location)
    (hmodel : model ∈ job.models)
    {file : ModelFile}
    (hstored : Emission.Stored (job.emission directory) location model file last)
    (hrefills : Refills (job.Wires location) last after) :
    ∃ prepared,
      (job.emission directory).emitter.prepareFile directory model file after = .ok prepared ∧
        GeneratedFile.InPlace (file.pathIn directory model) prepared after ∧
        (prepared = none ↔ file = .custom) := by
  obtain ⟨seen, prepared, hprepare, hseen, hplace⟩ := hstored
  have hname := ModelFile.isName_nameFor (GenerationJob.noSlash_fileName hmodel) file
  have hplace' : GeneratedFile.InPlace (file.pathIn directory model) prepared after :=
    hplace.grows hrefills.toGrows fun place hres hwires =>
      hwires.ne_child _ (hheld.eq_of_resolve_child hname hres)
  cases file with
  | queries =>
      obtain ⟨text, rfl⟩ := Emitter.exists_text_of_prepareFile hprepare
      have hall := (hseen.mono fun _ => Or.inl).trans (hrefills.mono fun _ => Or.inr)
      refine ⟨some text, ?_, hplace', by simp⟩
      rw [← hprepare]
      exact Emitter.prepareFile_queries_congr (overrideOf?_eq hapart hdest hall _)
  | custom =>
      have hexists := hplace'.pathExists
      exact ⟨none, Emitter.prepareFile_custom_of_pathExists hexists, hexists, by simp⟩

/-- A tree in which a run finds everything done. -/
structure Rested (job : GenerationJob) (directory : Path)
    (plan : GoStruct → ModelFile → Option String) (tree : FileTree) : Prop where
  begun : Begun job tree directory tree
  idle : (job.emission directory).Idle plan tree
  planned : ∀ model ∈ job.models, ∀ file, plan model file = none ↔ file = .custom
  quiet : job.settings.wire = true →
    ∀ paths, Providers.candidates tree directory = .ok paths →
      Providers.Quiet job.insertions tree paths

/-- After an emission everything is done but for the wiring. -/
theorem rested_of_emitted
    (hplaced : Placed job tree directory made location)
    (hemission : Emission.Returns (job.emission directory) made (.ok files) last)
    (hapart : job.settings.library.Apart after directory)
    (hrefills : Refills (job.Wires location) last after)
    (hquiet : job.settings.wire = true →
      ∀ paths, Providers.candidates after directory = .ok paths →
        Providers.Quiet job.insertions after paths) :
    Rested job directory ((job.emission directory).planAt after) after := by
  obtain ⟨hbegun, hdest, -, hjob⟩ := hplaced
  obtain ⟨state, hreach, hret, rfl⟩ := hemission
  have hmade := hbegun.grows fun _ => False
  have hemitted := hreach.refills hjob
  have hlater : Grows (fun _ => True) made after :=
    (hemitted.toGrows.mono fun _ _ => trivial).trans (hrefills.toGrows.mono fun _ _ => trivial)
  rw [← hmade.destination, ← hlater.destination] at hdest
  have hplan : ∀ model ∈ job.models, ∀ file,
      (job.emission directory).emitter.prepareFile directory model file after =
          .ok ((job.emission directory).planAt after model file) ∧
        GeneratedFile.InPlace (file.pathIn directory model)
          ((job.emission directory).planAt after model file) after ∧
        ((job.emission directory).planAt after model file = none ↔ file = .custom) := by
    intro model hmodel file
    obtain ⟨prepared, hprepare, hplace, hnone⟩ := prepared_again hapart hdest
      (hjob.held.grows hemitted.toGrows) hmodel (hreach.stored hjob hret hmodel file) hrefills
    rw [Emission.Job.planAt_eq hprepare]
    exact ⟨hprepare, hplace, hnone⟩
  refine ⟨⟨hbegun.models, ?_, createDirectories_again hbegun.created hlater⟩, ⟨?_, ?_⟩, ?_, hquiet⟩
  · have hcwd : after.cwd = tree.cwd := hlater.cwd.trans hmade.cwd
    rw [FileTree.workingDirectory, hcwd]
    exact hbegun.named
  · exact fun model hmodel file => (hplan model hmodel file).1
  · intro model hmodel file
    refine (hplan model hmodel file).2.1.store (Path.endsInSlash_child ?_)
    exact ModelFile.isName_nameFor (GenerationJob.noSlash_fileName hmodel) file
  · exact fun model hmodel file => (hplan model hmodel file).2.2

/-- After a run that patched provider files everything is done. -/
theorem rested_of_patched
    {result : Except WireError (List PatchOutcome)}
    (hplaced : Placed job tree directory made location)
    (hemission : Emission.Returns (job.emission directory) made (.ok files) last)
    (hapart : job.settings.library.Apart after directory)
    (hpatch : Providers.patch directory job.insertions last = (result, after)) :
    Rested job directory ((job.emission directory).planAt after) after := by
  rw [Providers.patch_of_candidates] at hpatch
  split at hpatch
  · next e hcandidates =>
      cases hpatch
      refine rested_of_emitted hplaced hemission hapart (Refills.refl _ _) fun _ paths hpaths => ?_
      rw [hcandidates] at hpaths
      cases hpaths
  · next paths hcandidates =>
      have hall : Providers.candidates last directory = .ok (paths ++ []) := by
        rw [List.append_nil, hcandidates]
      obtain ⟨hrefills, houtline⟩ := hplaced.refills_patchFiles hemission hall
      rw [hpatch] at hrefills houtline
      refine rested_of_emitted hplaced hemission hapart hrefills fun _ found hfound => ?_
      rw [Providers.candidates_congr hcandidates hrefills houtline] at hfound
      cases hfound
      exact Providers.quiet_patchFiles (isBatch_insertions (hplaced.isPackageName hemission)) hpatch

/-- After a run that succeeded everything is done. -/
theorem Ends.rested
    (h : Ends job tree (.ok report) after)
    (hproper : Proper tree)
    (htemplates : ∀ directory,
      job.settings.outputDirectory tree.workingDirectory = .ok directory →
        job.settings.library.Apart after directory)
    (hmodels : job.collected.models ≠ []) :
    ∃ directory plan, Rested job directory plan after := by
  cases h with
  | nothing hnone => exact absurd hnone hmodels
  | emitted hbegun hemission hwire =>
      obtain ⟨location, hplaced⟩ := hbegun.exists_placed hproper
      refine ⟨_, _, rested_of_emitted hplaced hemission (htemplates _ hbegun.named)
        (Refills.refl _ _) fun hwired => ?_⟩
      rw [hwire] at hwired
      cases hwired
  | wired hbegun hemission _ hpatch =>
      obtain ⟨location, hplaced⟩ := hbegun.exists_placed hproper
      exact ⟨_, _, rested_of_patched hplaced hemission (htemplates _ hbegun.named) hpatch⟩
  | unwired hbegun hemission _ hpatch =>
      obtain ⟨location, hplaced⟩ := hbegun.exists_placed hproper
      exact ⟨_, _, rested_of_patched hplaced hemission (htemplates _ hbegun.named) hpatch⟩

/-! ## The second run -/

section Rested

variable {plan : GoStruct → ModelFile → Option String}

/-- A report of a run that found everything done. -/
structure Repeats (job : GenerationJob) (directory : Path) (report : GenerationReport) :
    Prop where
  files : report.files = job.models.flatMap fun model =>
    [ModelFile.queries.record directory model .written,
      ModelFile.custom.record directory model .skipped]
  wiring : ∀ outcome ∈ report.wiring, outcome.patch.isInserted = false

theorem Rested.begun_eq
    {other : Path}
    (hrested : Rested job directory plan tree)
    (h : Begun job tree other made) :
    other = directory ∧ made = tree := by
  have hnamed := h.named
  rw [hrested.begun.named] at hnamed
  cases hnamed
  have hcreated := h.created
  rw [hrested.begun.created] at hcreated
  cases hcreated
  exact ⟨rfl, rfl⟩

/-- An emission that finds everything done leaves the tree as it is. -/
theorem Rested.returns
    {result : Emission.UnitResult}
    (hrested : Rested job directory plan tree)
    (h : Emission.Returns (job.emission directory) tree result last) :
    last = tree ∧
      result = .ok (job.models.flatMap fun model =>
        [ModelFile.queries.record directory model .written,
          ModelFile.custom.record directory model .skipped]) := by
  obtain ⟨state, hreach, hret, rfl⟩ := h
  obtain ⟨htree, hfits⟩ := hrested.idle.fits hreach
  obtain ⟨-, -, rfl⟩ := hreach.returned_of_fits hfits hret
  refine ⟨htree, congrArg Except.ok (List.flatMap_congr fun model hmodel => ?_)⟩
  have hcustom := (hrested.planned model hmodel .custom).mpr rfl
  obtain ⟨text, hqueries⟩ : ∃ text, plan model .queries = some text := by
    have hne := mt (hrested.planned model hmodel .queries).mp (by simp)
    exact Option.ne_none_iff_exists'.mp hne
  simp [ModelFile.all, ModelFile.planned, hcustom, hqueries, GeneratedFile.resultOf,
    GenerationJob.emission]

/-- A run that finds everything done ends with a report that says so. -/
theorem Rested.ends
    {result : Except GenerateError GenerationReport}
    (hrested : Rested job directory plan tree)
    (h : Ends job tree result after) :
    after = tree ∧ ∃ report, result = .ok report ∧ Repeats job directory report := by
  cases h with
  | nothing hnone => exact absurd hnone hrested.begun.models
  | noDirectory _ hdirectory =>
      rw [hrested.begun.named] at hdirectory
      cases hdirectory
  | notMade _ hdirectory hmade =>
      rw [hrested.begun.named] at hdirectory
      cases hdirectory
      rw [hrested.begun.created] at hmade
      cases hmade
  | failed hbegun hemission =>
      obtain ⟨rfl, rfl⟩ := hrested.begun_eq hbegun
      cases (hrested.returns hemission).2
  | emitted hbegun hemission _ =>
      obtain ⟨rfl, rfl⟩ := hrested.begun_eq hbegun
      obtain ⟨rfl, hfiles⟩ := hrested.returns hemission
      cases hfiles
      refine ⟨rfl, _, rfl, rfl, ?_⟩
      simp [GenerationJob.reportWith, job.collects.wiring]
  | unwired hbegun hemission hwire hpatch =>
      obtain ⟨rfl, rfl⟩ := hrested.begun_eq hbegun
      obtain ⟨rfl, hfiles⟩ := hrested.returns hemission
      cases hfiles
      obtain ⟨rfl, -⟩ := Providers.patch_of_quiet (hrested.quiet hwire) hpatch
      refine ⟨rfl, _, rfl, rfl, ?_⟩
      simp [unwired, GenerationJob.reportWith, job.collects.wiring]
  | wired hbegun hemission hwire hpatch =>
      obtain ⟨rfl, rfl⟩ := hrested.begun_eq hbegun
      obtain ⟨rfl, hfiles⟩ := hrested.returns hemission
      cases hfiles
      obtain ⟨rfl, hquiet⟩ := Providers.patch_of_quiet (hrested.quiet hwire) hpatch
      exact ⟨rfl, _, rfl, rfl, hquiet _ rfl⟩

/-- A run that finds everything done changes nothing in any of its states. -/
theorem Rested.tree_eq
    (hrested : Rested job directory plan tree)
    (h : Reaches job tree state) :
    state.tree = tree := by
  have hfollows := h.follows
  cases state with
  | starting seen => exact hfollows
  | emitting other emission =>
      obtain ⟨made, hbegun, hreach⟩ := hfollows
      obtain ⟨rfl, rfl⟩ := hrested.begun_eq hbegun
      exact (hrested.idle.fits hreach).1
  | wiring files left outcomes seen =>
      obtain ⟨other, made, last, front, hbegun, hemission, hwire, hcandidates, hpatch⟩ := hfollows
      obtain ⟨rfl, rfl⟩ := hrested.begun_eq hbegun
      obtain ⟨rfl, -⟩ := hrested.returns hemission
      have hquiet := (hrested.quiet hwire _ hcandidates).of_append
      have hsame := (Providers.patchFiles_of_quiet hquiet).1
      rw [hpatch] at hsame
      exact hsame
  | ended result seen => exact (hrested.ends hfollows).1

end Rested

/-! ## Nothing to generate -/

theorem Ends.eq_of_nothing
    {result : Except GenerateError GenerationReport}
    (hmodels : job.collected.models = [])
    (h : Ends job tree result after) :
    result = .ok job.collected.report ∧ after = tree := by
  cases h with
  | nothing => exact ⟨rfl, rfl⟩
  | noDirectory hne => exact absurd hmodels hne
  | notMade hne => exact absurd hmodels hne
  | failed hbegun => exact absurd hmodels hbegun.models
  | emitted hbegun => exact absurd hmodels hbegun.models
  | wired hbegun => exact absurd hmodels hbegun.models
  | unwired hbegun => exact absurd hmodels hbegun.models

theorem Reaches.tree_eq_of_nothing
    (hmodels : job.collected.models = [])
    (h : Reaches job tree state) :
    state.tree = tree := by
  have hfollows := h.follows
  cases state with
  | starting seen => exact hfollows
  | emitting other emission =>
      obtain ⟨_, hbegun, -⟩ := hfollows
      exact absurd hmodels hbegun.models
  | wiring files left outcomes seen =>
      obtain ⟨_, _, _, _, hbegun, -⟩ := hfollows
      exact absurd hmodels hbegun.models
  | ended result seen => exact (hfollows.eq_of_nothing hmodels).2

/-! ## Any two runs -/

/-- A run that succeeded, whatever became of its wiring, can be made again: the second run
succeeds as well, changes nothing in any of its states, writes the same queries again, leaves
the files for queries written by hand alone and inserts nothing. -/
theorem Reaches.again
    (hproper : Proper tree)
    (htemplates : ∀ directory,
      job.settings.outputDirectory tree.workingDirectory = .ok directory →
        job.settings.library.Apart after directory)
    (h : Reaches job tree (.ended (.ok report) after)) :
    (∀ state, Reaches job after state →
      state.tree = after ∧
        ∃ schedule last, state.run job schedule = some last ∧ last.result?.isSome = true) ∧
    ∀ result last, Reaches job after (.ended result last) →
      ∃ again,
        result = .ok again ∧
          (∀ outcome ∈ again.wiring, outcome.patch.isInserted = false) ∧
          ∀ directory, job.settings.outputDirectory after.workingDirectory = .ok directory →
            again.files = job.models.flatMap fun model =>
              [ModelFile.queries.record directory model .written,
                ModelFile.custom.record directory model .skipped] := by
  have hends : Ends job tree (.ok report) after := reaches_ended_iff.mp h
  by_cases hmodels : job.collected.models = []
  · obtain ⟨-, rfl⟩ := hends.eq_of_nothing hmodels
    refine ⟨fun state hstate =>
      ⟨hstate.tree_eq_of_nothing hmodels, hstate.exists_run_ended⟩, ?_⟩
    intro result last hlast
    obtain ⟨rfl, -⟩ := (reaches_ended_iff.mp hlast).eq_of_nothing hmodels
    refine ⟨_, rfl, ?_, fun directory _ => ?_⟩
    · simp [job.collects.wiring]
    · simp [job.collects.files, GenerationJob.models, hmodels]
  · obtain ⟨directory, plan, hrested⟩ := hends.rested hproper htemplates hmodels
    refine ⟨fun state hstate => ⟨hrested.tree_eq hstate, hstate.exists_run_ended⟩, ?_⟩
    intro result last hlast
    obtain ⟨-, again, rfl, hrepeats⟩ := hrested.ends (reaches_ended_iff.mp hlast)
    refine ⟨again, rfl, hrepeats.wiring, fun other hother => ?_⟩
    rw [hrested.begun.named] at hother
    cases hother
    exact hrepeats.files

/-! ## One table -/

/-- A database with tables that have a primary key only. -/
def keySource : SchemaSource where
  dialect := .sqlite
  tables := .ok ["users"]
  columns table := .ok [
    { table := table, name := "id", databaseType := "INTEGER", columnType := "integer"
      nullable := false, primaryKey := true }]
  indexes _ := .ok []

/-- One table of that database, two workers and a directory of templates. -/
def usersJob : GenerationJob where
  settings := { out := ⟨"db/db"⟩, library := .directory ⟨"tpl"⟩ }
  source := keySource
  tables := ["users"]
  workers := 2

def usersModel : GoStruct where
  fileName := "user"
  interfaceName := "user"
  structName := "User"
  tableName := "users"
  packageName := "db"
  primaryKeyType := "int64"
  fields := [
    { name := "Id", goType := "int64", column := "id"
      gormTag := "column:id;type:integer;primaryKey;autoIncrement:false", jsonTag := "id"
      comment := "", isPrimaryKey := true }]

/-- A project with two templates and a provider file. -/
def usersTree : FileTree where
  nodes := [(["tpl"], .directory), (["tpl", "repo_gen.tpl"], .file (.text "a")),
    (["tpl", "repo_custom.tpl"], .file (.text "b")), (["db"], .directory),
    (["db", "app.go"], .file (.text (Insertion.repositoryMarker ++ "\n")))]

def usersMade : FileTree :=
  usersTree.place ["db", "db"] .directory

def usersEmitted : FileTree :=
  (usersMade.place ["db", "db", "user_gen.go"] (.file (.text (generatedHeader ++ "\na")))).place
    ["db", "db", "user.go"] (.file (.text "b"))

def usersPatched : FileTree :=
  usersEmitted.place ["db", "app.go"]
    (.file (.text ("    db.NewUserDb,\n" ++ Insertion.repositoryMarker ++ "\n")))

theorem models_users :
    usersJob.collected.models = [("User", usersModel)] := by
  decide +kernel

theorem begun_users :
    Begun usersJob usersTree ⟨"db/db"⟩ usersMade where
  models := by simp [models_users]
  named := rfl
  created := rfl

theorem insertions_users :
    usersJob.insertions = insertionsOf [usersModel] := by
  simp [GenerationJob.insertions, GenerationJob.models, models_users]

/-- An emission of the job returns what emitting its files one after the other comes to. -/
theorem returns_of_emit
    (hok : (Emitter.emit { library := .directory ⟨"tpl"⟩ } ⟨"db/db"⟩ [usersModel] made).1.isOk =
      true)
    (hlast : (Emitter.emit { library := .directory ⟨"tpl"⟩ } ⟨"db/db"⟩ [usersModel] made).2 =
      last) :
    ∃ files, Emission.Returns (usersJob.emission ⟨"db/db"⟩) made (.ok files) last := by
  have hreturns := Emission.returns_emit (usersJob.emission ⟨"db/db"⟩) made
  have hmodels : (usersJob.emission ⟨"db/db"⟩).models = [usersModel] := by
    simp [GenerationJob.emission, GenerationJob.models, models_users]
  obtain ⟨files, hfiles⟩ := exists_of_isOk hok
  rw [hmodels] at hreturns
  refine ⟨files, ?_⟩
  rw [← hfiles, ← hlast]
  exact hreturns

theorem returns_users :
    ∃ files,
      Emission.Returns (usersJob.emission ⟨"db/db"⟩) usersMade (.ok files) usersEmitted :=
  returns_of_emit (by decide +kernel) (by decide +kernel)

theorem candidates_users :
    Providers.candidates usersEmitted ⟨"db/db"⟩ = .ok [⟨"db/app.go"⟩] := by
  have hlisting : usersEmitted.listing ["db"] = [("app.go", false), ("db", true)] :=
    listing_of_sorted (by decide +kernel) (by decide +kernel)
  refine Providers.candidates_eq_ok_iff.mpr
    ⟨["db"], eq_ok_of_toOption (by decide +kernel), by decide +kernel, by simp, ?_⟩
  rw [hlisting]
  decide +kernel

theorem patch_users :
    Providers.patch ⟨"db/db"⟩ usersJob.insertions usersEmitted =
      (.ok [⟨⟨"db/app.go"⟩, (Insertion.repository "db" "User").text, .inserted 1⟩],
        usersPatched) := by
  rw [Providers.patch_of_candidates, candidates_users, insertions_users]
  refine Prod.ext (eq_ok_of_toOption ?_) ?_
  · decide +kernel
  · decide +kernel

/-- A run for one table inserts a provider, and the run after it finds everything done. -/
theorem users_again :
    ∃ report,
      Reaches usersJob usersTree (.ended (.ok report) usersPatched) ∧
        (∃ outcome ∈ report.wiring, outcome.patch.isInserted = true) ∧
        ∀ state, Reaches usersJob usersPatched state → state.tree = usersPatched := by
  obtain ⟨files, hemission⟩ := returns_users
  have hreach := reaches_ended_iff.mpr (.wired begun_users hemission rfl patch_users)
  have hproper : Proper usersTree := proper_of_nodes (by decide) rfl
  have hapart : ∀ directory,
      usersJob.settings.outputDirectory usersTree.workingDirectory = .ok directory →
        usersJob.settings.library.Apart usersPatched directory := by
    intro directory hdirectory
    cases hdirectory
    refine ⟨fun hlibrary hplace hlocation => ?_, fun kind hlibrary => ?_⟩
    · cases hlibrary
      cases hplace
      cases hlocation
      decide
    · cases hlibrary
      cases kind <;> decide +kernel
  refine ⟨_, hreach, ⟨_, List.mem_singleton_self _, rfl⟩, fun state hstate => ?_⟩
  exact ((hreach.again hproper hapart).1 state hstate).1

end Generation
end GormForge
