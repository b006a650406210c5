import GormForge.Proofs.Emission.InOrder
import GormForge.Proofs.Emission.Preparation
import GormForge.Proofs.FileTree.Refill
import GormForge.Proofs.Template.Builtin
import Mathlib.Tactic.Choose

/-!
# Independence of scheduling

When every model can be emitted alone, all schedules come to the same.

**Algorithm.**  What the models come to alone is a plan for the whole job.  Emitting in order
keeps to the plan, which gives the tree in which the plan ends; any other schedule stays
below that tree and keeps to the plan as well.

**Results.**
* `exists_plan`: models that can be emitted alone have a plan.
* `Reaches.agrees_with_emit`: all schedules return the files that emitting in order returns,
  and leave its tree.
* `detour_fails`: models that can be emitted alone may fail together when a template comes into
  sight between them.
-/

namespace GormForge

open FileTree

/-! ## Models alone -/

namespace Emitter

variable {emitter : Emitter}
variable {directory : Path}
variable {model : GoStruct}
variable {file : ModelFile}
variable {tree after : FileTree}

theorem emitFile_eq_ok_iff
    {emitted : EmittedFile} :
    emitter.emitFile directory model file tree = (.ok emitted, after) ↔
      ∃ prepared,
        emitter.prepareFile directory model file tree = .ok prepared ∧
          storeFile directory model file prepared tree = (.ok emitted, after) := by
  cases hprepare : emitter.prepareFile directory model file tree with
  | error e =>
      rw [emitFile_of_error hprepare]
      constructor
      · intro h
        cases h
      · rintro ⟨_, h, -⟩
        cases h
  | ok prepared =>
      rw [emitFile_of_ok hprepare]
      constructor
      · intro h
        exact ⟨prepared, rfl, h⟩
      · rintro ⟨_, h, hstore⟩
        cases h
        exact hstore

theorem emitModel_eq_ok_iff
    {files : List EmittedFile} :
    emitter.emitModel directory model tree = (.ok files, after) ↔
      ∃ first middle second,
        emitter.emitFile directory model .queries tree = (.ok first, middle) ∧
          emitter.emitFile directory model .custom middle = (.ok second, after) ∧
          files = [first, second] := by
  simp only [emitModel, ModelFile.all, List.mapM_cons, List.mapM_nil, bind_eq_ok_iff, pure_apply]
  constructor
  · rintro ⟨first, middle, hfirst, _, last, ⟨second, other, hsecond, _, _, hnil, hmore⟩, h⟩
    cases hnil
    cases hmore
    cases h
    exact ⟨first, middle, second, hfirst, hsecond, rfl⟩
  · rintro ⟨first, middle, second, hfirst, hsecond, rfl⟩
    exact ⟨first, middle, hfirst, [second], after,
      ⟨second, after, hsecond, [], after, rfl, rfl⟩, rfl⟩

/-- What a built-in template renders to is what is to be written, if no formatting changes it. -/
theorem prepareFile_of_renderAll
    {text : String}
    (hvalid : (RenderContext.ofModel model emitter.project).validate = .ok ())
    (hmissing : emitter.library.overrideOf? tree file.kind = .ok none)
    (hformat : emitter.formatter = .passthrough)
    (hwrite : ¬ (file.rules.overwrite = .ifMissing ∧
      tree.pathExists (file.pathIn directory model) = true))
    (hrender : Template.renderAll (RenderContext.ofModel model emitter.project).scope
      file.kind.builtin = some text) :
    emitter.prepareFile directory model file tree = .ok (some (file.rules.withHeader text)) := by
  have htext : emitter.render directory model file tree = .ok text := by
    unfold render
    simp only [hvalid, Template.Library.renderWith_of_missing hmissing hrender, hformat]
    rfl
  exact GeneratedFile.prepare_eq_ok_some_iff.mpr ⟨hwrite, text, htext, rfl⟩

/-- With a built-in template, a file that has to be written is prepared for every valid model. -/
theorem prepareFile_builtin
    (file : ModelFile)
    (hvalid : (RenderContext.ofModel model emitter.project).validate = .ok ())
    (hmissing : emitter.library.overrideOf? tree file.kind = .ok none)
    (hformat : emitter.formatter = .passthrough)
    (hwrite : ¬ (file.rules.overwrite = .ifMissing ∧
      tree.pathExists (file.pathIn directory model) = true)) :
    ∃ text, emitter.prepareFile directory model file tree = .ok (some text) := by
  obtain ⟨text, htext⟩ : ∃ text,
      Template.renderAll (RenderContext.ofModel model emitter.project).scope file.kind.builtin =
        some text := by
    apply Option.isSome_iff_exists.mp
    cases file with
    | queries => exact Template.renderAll_repositoryQueries _
    | custom => exact Template.renderAll_repositoryCustom _
  exact ⟨_, prepareFile_of_renderAll hvalid hmissing hformat hwrite htext⟩

end Emitter

namespace Emission

variable {job : Job}
variable {tree ground : FileTree}
variable {location : Location}
variable {model : GoStruct}
variable {wanted : String → Option String}

/-- What a model comes to when it is emitted alone. -/
structure Alone (job : Job) (tree ground : FileTree) (location : Location) (model : GoStruct)
    (prepared : ModelFile → Option String) : Prop where
  parents : ∀ file : ModelFile,
    GeneratedFile.makeParents (file.pathIn job.directory model) tree = (.ok (), ground)
  resolves : ∀ file : ModelFile,
    ground.resolve (file.pathIn job.directory model) = .ok (location ++ [file.nameFor model])
  free : ∀ file : ModelFile, prepared file ≠ none →
    ground.get? (location ++ [file.nameFor model]) ≠ some .directory
  prepares : ∃ text,
    prepared .queries = some text ∧
      job.emitter.prepareFile job.directory model .queries tree = .ok (some text) ∧
      job.emitter.prepareFile job.directory model .custom
          (ground.place (location ++ [ModelFile.queries.nameFor model]) (.file (.text text))) =
        .ok (prepared .custom)

/-- The directories above the files are the same for all of them. -/
theorem makeParents_congr
    (base : Path)
    {name other : String}
    (hname : Path.IsName name)
    (hother : Path.IsName other) :
    GeneratedFile.makeParents (base.child name) = GeneratedFile.makeParents (base.child other) := by
  unfold GeneratedFile.makeParents
  rw [Path.parent?_child hname hother]

/-- A file that was emitted into a directory lies below it, and no directory stood in its way. -/
theorem resolves_of_storeFile
    {file : ModelFile}
    {prepared : Option String}
    {emitted : EmittedFile}
    {seen after : FileTree}
    (hname : Path.IsName (file.nameFor model))
    (hheld : Holds seen job.directory location)
    (hparents : GeneratedFile.makeParents (file.pathIn job.directory model) seen = (.ok (), seen))
    (hprepare : job.emitter.prepareFile job.directory model file seen = .ok prepared)
    (hstore : Emitter.storeFile job.directory model file prepared seen = (.ok emitted, after)) :
    seen.resolve (file.pathIn job.directory model) = .ok (location ++ [file.nameFor model]) ∧
      (prepared ≠ none → seen.get? (location ++ [file.nameFor model]) ≠ some .directory) := by
  cases prepared with
  | none =>
      obtain ⟨-, hexists⟩ := GeneratedFile.prepare_eq_ok_none_iff.mp hprepare
      obtain ⟨place, hres, -⟩ := pathExists_iff.mp hexists
      obtain rfl := hheld.eq_of_resolve_child hname hres
      exact ⟨hres, fun hno => absurd rfl hno⟩
  | some text =>
      obtain ⟨-, made, hmade, hwrite⟩ := Emitter.storeFile_some_eq_ok_iff.mp hstore
      rw [hparents] at hmade
      cases hmade
      obtain ⟨-, place, hres, hfree, -⟩ := write_eq_ok_iff.mp hwrite
      obtain rfl := hheld.eq_of_resolve_child hname hres
      exact ⟨hres, fun _ => hfree⟩

/-- The queries of a model that are emitted make the directory and are a file of it. -/
theorem exists_of_emitFile_queries
    {emitted : EmittedFile}
    {middle : FileTree}
    (hname : Path.IsName (ModelFile.queries.nameFor model))
    (h : job.emitter.emitFile job.directory model .queries tree = (.ok emitted, middle)) :
    ∃ text ground location,
      job.emitter.prepareFile job.directory model .queries tree = .ok (some text) ∧
        GeneratedFile.makeParents (ModelFile.queries.pathIn job.directory model) tree =
          (.ok (), ground) ∧
        Holds ground job.directory location ∧
        ground.resolve (ModelFile.queries.pathIn job.directory model) =
          .ok (location ++ [ModelFile.queries.nameFor model]) ∧
        ground.get? (location ++ [ModelFile.queries.nameFor model]) ≠ some .directory ∧
        middle = ground.place (location ++ [ModelFile.queries.nameFor model])
          (.file (.text text)) := by
  obtain ⟨prepared, hprepare, hstore⟩ := Emitter.emitFile_eq_ok_iff.mp h
  obtain ⟨text, rfl⟩ := Emitter.exists_text_of_prepareFile hprepare
  obtain ⟨-, ground, hparents, hwrite⟩ := Emitter.storeFile_some_eq_ok_iff.mp hstore
  obtain ⟨-, place, hres, hfree, rfl⟩ := write_eq_ok_iff.mp hwrite
  obtain ⟨location, hwalk, hdir, rfl⟩ := resolve_child hname hres
  exact ⟨text, ground, location, hprepare, hparents, ⟨hwalk, hdir⟩, hres, hfree, rfl⟩

/-- A model that can be emitted alone. -/
theorem exists_alone
    (hslash : '/' ∉ model.fileName.toList)
    {files : List EmittedFile}
    {after : FileTree}
    (h : job.emitter.emitModel job.directory model tree = (.ok files, after)) :
    ∃ ground location prepared,
      Alone job tree ground location model prepared ∧ Holds ground job.directory location := by
  have hnames := ModelFile.isName_nameFor hslash
  obtain ⟨first, middle, second, hfirst, hsecond, -⟩ := Emitter.emitModel_eq_ok_iff.mp h
  obtain ⟨text, ground, location, hprepare, hparents, hheld, hres, hfree, rfl⟩ :=
    exists_of_emitFile_queries (hnames .queries) hfirst
  obtain ⟨custom, hprepare', hstore'⟩ := Emitter.emitFile_eq_ok_iff.mp hsecond
  have hparents' : GeneratedFile.makeParents (ModelFile.custom.pathIn job.directory model) tree =
      (.ok (), ground) := by
    rw [← hparents]
    exact congrFun (makeParents_congr _ (hnames .custom) (hnames .queries)) tree
  -- the first file does not stand in the way of the second
  have hgrows : Grows (fun _ => True) ground
      (ground.place (location ++ [ModelFile.queries.nameFor model]) (.file (.text text))) :=
    grows_place_file hfree trivial
  have hkept : (ground.place (location ++ [ModelFile.queries.nameFor model])
      (.file (.text text))).get? (location ++ [ModelFile.custom.nameFor model]) =
        ground.get? (location ++ [ModelFile.custom.nameFor model]) := by
    rw [get?_place, if_neg]
    rintro ⟨heq, -⟩
    cases ModelFile.eq_of_nameFor_eq (by simpa using heq)
  obtain ⟨hres', hfree'⟩ := resolves_of_storeFile (hnames .custom) (hheld.grows hgrows)
    (GeneratedFile.makeParents_again hparents' hgrows) hprepare' hstore'
  rw [ModelFile.pathIn, hheld.resolve_child_eq (hheld.grows hgrows) (hnames .custom)] at hres'
  rw [hkept] at hfree'
  refine ⟨ground, location, fun file => if file = .queries then some text else custom, ?_, hheld⟩
  exact
    { parents := by
        intro file
        cases file with
        | queries => exact hparents
        | custom => exact hparents'
      resolves := by
        intro file
        cases file with
        | queries => exact hres
        | custom => exact hres'
      free := by
        intro file
        cases file with
        | queries => exact fun _ => hfree
        | custom => exact hfree'
      prepares := ⟨text, rfl, hprepare, hprepare'⟩ }

/-- All models share the directories of the first one. -/
theorem exists_shared
    (hslash : ∀ model ∈ job.models, '/' ∉ model.fileName.toList)
    (halone : ∀ model ∈ job.models,
      ∃ files after, job.emitter.emitModel job.directory model tree = (.ok files, after)) :
    ∃ ground location,
      Grows (fun _ => False) tree ground ∧
        ∀ model ∈ job.models, ∃ prepared, Alone job tree ground location model prepared := by
  by_cases hmodels : job.models = []
  · exact ⟨tree, [], Grows.refl _ _, by simp [hmodels]⟩
  · obtain ⟨first, hmem⟩ := List.exists_mem_of_ne_nil _ hmodels
    obtain ⟨_, _, hfirst⟩ := halone first hmem
    obtain ⟨ground, location, prepared, hfirst, hheld⟩ := exists_alone (hslash first hmem) hfirst
    have hparents := hfirst.parents .queries
    refine ⟨ground, location, ?_, ?_⟩
    · have hgrows := GeneratedFile.grows_makeParents (fun _ => False)
        (ModelFile.queries.pathIn job.directory first) tree
      rw [hparents] at hgrows
      exact hgrows
    · intro model hmodel
      obtain ⟨_, _, hunit⟩ := halone model hmodel
      obtain ⟨ground', location', prepared', halone', hheld'⟩ :=
        exists_alone (hslash model hmodel) hunit
      have hsame := congrFun (makeParents_congr job.directory
        (ModelFile.isName_nameFor (hslash first hmem) .queries)
        (ModelFile.isName_nameFor (hslash model hmodel) .queries)) tree
      obtain rfl : ground = ground' :=
        congrArg Prod.snd (hparents.symm.trans (hsame.trans (halone'.parents .queries)))
      obtain rfl : location = location' :=
        Except.ok.inj (hheld.walk.symm.trans hheld'.walk)
      exact ⟨prepared', halone'⟩

/-! ## The plan of a job -/

/-- What is wanted for the files of each model is wanted for their names, which are different. -/
theorem exists_wanted
    {property : GoStruct → (ModelFile → Option String) → Prop}
    (hnames : job.names.Nodup)
    (h : ∀ model ∈ job.models, ∃ prepared, property model prepared) :
    ∃ wanted, ∀ model ∈ job.models, property model (planOf wanted model) := by
  choose! prepared hprepared using h
  let files := job.models.flatMap fun model => ModelFile.all.map fun file => (model, file)
  have hfiles : files.map (fun entry => entry.2.nameFor entry.1) = job.names := by
    simp only [files, Job.names, List.map_flatMap, List.map_map]
    rfl
  rw [← hfiles] at hnames
  refine ⟨fun name => (files.find? fun entry => entry.2.nameFor entry.1 = name).bind fun entry =>
    prepared entry.1 entry.2, ?_⟩
  intro model hmodel
  convert hprepared model hmodel using 1
  funext file
  have hmem : (model, file) ∈ files :=
    List.mem_flatMap.mpr ⟨model, hmodel, List.mem_map.mpr ⟨file, ModelFile.mem_all file, rfl⟩⟩
  unfold planOf
  cases hfind : files.find? fun entry => entry.2.nameFor entry.1 = file.nameFor model with
  | none => simpa using List.find?_eq_none.mp hfind (model, file) hmem
  | some entry =>
      have hname : entry.2.nameFor entry.1 = file.nameFor model := by
        simpa using List.find?_some hfind
      obtain rfl : entry = (model, file) :=
        List.inj_on_of_nodup_map hnames (List.mem_of_find?_eq_some hfind) hmem hname
      simp [hfind]

/-- Models that can be emitted alone have a plan. -/
theorem exists_plan
    (hslash : ∀ model ∈ job.models, '/' ∉ model.fileName.toList)
    (hnames : job.names.Nodup)
    (halone : ∀ model ∈ job.models,
      ∃ files after, job.emitter.emitModel job.directory model tree = (.ok files, after)) :
    ∃ ground location wanted, Plan job tree ground location wanted := by
  obtain ⟨ground, location, hgrows, hplans⟩ := exists_shared hslash halone
  obtain ⟨wanted, hwanted⟩ := exists_wanted hnames hplans
  refine ⟨ground, location, wanted, ?_⟩
  exact
    { slash := hslash
      names := hnames
      made := hgrows
      parents := fun model hmodel => (hwanted model hmodel).parents
      resolves := fun model hmodel => (hwanted model hmodel).resolves
      free := fun model hmodel => (hwanted model hmodel).free
      queries := by
        intro model hmodel
        obtain ⟨text, htext, -⟩ := (hwanted model hmodel).prepares
        rw [planOf] at htext
        simp [htext]
      prepares := by
        intro model hmodel front file rest hall
        obtain ⟨text, htext, hfirst, hsecond⟩ := (hwanted model hmodel).prepares
        cases file with
        | queries =>
            obtain rfl := ModelFile.eq_earlier hall
            refine ⟨tree, Or.inl ⟨by simp [ModelFile.earlier], rfl⟩, ?_⟩
            rw [hfirst, ← htext, planOf]
        | custom =>
            obtain rfl := ModelFile.eq_earlier hall
            refine ⟨_, Or.inr ⟨⟨_, List.mem_singleton.mpr rfl⟩, ?_⟩, hsecond⟩
            have hground : Filled ground location wanted (fun _ => False) ground :=
              filled_ground ground location wanted fun _ => id
            exact (hground.place htext).congr (by simp [ModelFile.earlier]) }

/-! ## All schedules -/

namespace Plan

variable {state : State}
variable (hplan : Plan job tree ground location wanted)

include hplan

/-- A schedule keeps to the plan when the templates read the same in the end. -/
theorem proceeds_run
    (hreach : Reaches job tree state)
    (h : Proceeds job tree ground location wanted state)
    {schedule : List Move}
    {last : State}
    (hrun : state.run job schedule = some last)
    (hsame : ∀ file : ModelFile, job.emitter.library.overrideOf? last.tree file.kind =
      job.emitter.library.overrideOf? tree file.kind) :
    Proceeds job tree ground location wanted last := by
  induction schedule generalizing state with
  | nil =>
      cases hrun
      exact h
  | cons move rest ih =>
      have hstable : ∀ file : ModelFile, job.emitter.library.overrideOf? state.tree file.kind =
          job.emitter.library.overrideOf? tree file.kind := fun file =>
        Template.Library.overrideOf?_between hreach.grows (hreach.grows_run hrun)
          (fun _ _ _ hres => Job.not_writes_template hplan.slash hres) (hsame file)
      obtain ⟨middle, hmove, hrest⟩ := State.run_cons_eq_some_iff.mp hrun
      exact ih (hreach.move move hmove) (hplan.proceeds_move hreach h hstable hmove) hrest

omit hplan in
/-- An emission that keeps to the plan and returns has treated all names. -/
theorem stands_of_returned
    (hreach : Reaches job tree state)
    (h : Proceeds job tree ground location wanted state)
    {result : UnitResult}
    (hret : state.returned? = some result) :
    Stands tree ground location wanted (· ∈ job.names) state.tree := by
  obtain ⟨hentries, hbehind, -⟩ := hreach.returned_of_fits h.fits hret
  refine h.stands.congr fun name => ⟨hreach.mem_names_of_done, fun hname => ?_⟩
  obtain ⟨model, hmodel, file, rfl⟩ := exists_of_mem_names hname
  rw [← map_model_of_entries hentries] at hmodel
  obtain ⟨worker, hw, rfl⟩ := List.mem_map.mp hmodel
  refine ⟨worker, hw, file, ?_, rfl⟩
  rw [hbehind worker hw]
  exact ModelFile.mem_all file

/-- All schedules keep to the plan when the templates read the same in the tree in which the
plan ends. -/
theorem proceeds
    {last : FileTree}
    (hlast : Stands tree ground location wanted (· ∈ job.names) last)
    (hsame : ∀ file : ModelFile, job.emitter.library.overrideOf? last file.kind =
      job.emitter.library.overrideOf? tree file.kind)
    (hreach : Reaches job tree state) :
    Proceeds job tree ground location wanted state := by
  induction hreach with
  | start => exact proceeds_start job tree ground location wanted
  | move move hreach hmove ih =>
      have hbelow := hplan.grows ih.stands hlast (fun _ => hreach.mem_names_of_done) fun _ => id
      refine hplan.proceeds_move hreach ih (fun file => ?_) hmove
      exact Template.Library.overrideOf?_between hreach.grows hbelow
        (fun _ _ _ hres => Job.not_writes_template hplan.slash hres) (hsame file)

end Plan

/-- **Scheduling does not matter.**  Every schedule can be continued until the emission
returns, and if it returns files, then the two files of every model, in the order of the
models.  Let now the paths of all files be different, let every model be emitted alone without
a failure, and let the templates read the same before the emission and after emitting in order.
Then the emission returns what emitting in order returns, with the same tree. -/
theorem Reaches.agrees_with_emit
    {state : State}
    (hreach : Reaches job tree state) :
    (∃ schedule last, state.run job schedule = some last ∧ last.returned?.isSome = true) ∧
    (∀ files, state.returned? = some (.ok files) →
      files.map EmittedFile.target =
        job.models.flatMap fun model =>
          ModelFile.all.map (ModelFile.target job.directory model)) ∧
    ((∀ model ∈ job.models, '/' ∉ model.fileName.toList) →
      (job.models.flatMap fun model =>
        ModelFile.all.map fun file => file.pathIn job.directory model).Nodup →
      (∀ model ∈ job.models,
        ∃ files after, job.emitter.emitModel job.directory model tree = (.ok files, after)) →
      (∀ file : ModelFile,
        job.emitter.library.overrideOf? (job.emitter.emit job.directory job.models tree).2
            file.kind =
          job.emitter.library.overrideOf? tree file.kind) →
      ∀ result, state.returned? = some result →
        ∃ files after,
          job.emitter.emit job.directory job.models tree = (.ok files, after) ∧
            result = .ok files ∧
            state.tree.cwd = after.cwd ∧
            ∀ place, state.tree.get? place = after.get? place) := by
  refine ⟨hreach.exists_run_returned, fun _ => hreach.map_target, ?_⟩
  intro hslash hpaths halone hsame result hret
  have hnames : job.names.Nodup := by
    refine List.Nodup.of_map job.directory.child ?_
    simpa [Job.names, ModelFile.namesOf, ModelFile.pathIn, List.map_flatMap, Function.comp_def]
      using hpaths
  obtain ⟨ground, location, wanted, hplan⟩ := exists_plan hslash hnames halone
  -- emitting in order keeps to the plan, so its tree is the one in which the plan ends
  obtain ⟨last, hlast, hlastRet, hlastTree⟩ := returns_emit job tree
  rw [← hlastTree] at hsame
  obtain ⟨schedule, hrun⟩ := reaches_iff_exists_run.mp hlast
  have hend : Proceeds job tree ground location wanted last :=
    hplan.proceeds_run .start (Plan.proceeds_start job tree ground location wanted) hrun hsame
  have hstandsLast := Plan.stands_of_returned hlast hend hlastRet
  -- and so does every other schedule
  have hall : Proceeds job tree ground location wanted state :=
    hplan.proceeds hstandsLast hsame hreach
  have hstands := Plan.stands_of_returned hreach hall hret
  obtain ⟨-, -, hresult⟩ := hreach.returned_of_fits hall.fits hret
  obtain ⟨-, -, hresultLast⟩ := hlast.returned_of_fits hend.fits hlastRet
  rcases hemit : job.emitter.emit job.directory job.models tree with ⟨value, after⟩
  rw [hemit] at hresultLast hlastTree
  simp only at hresultLast hlastTree
  subst hresultLast hlastTree
  refine ⟨_, _, rfl, hresult, ?_, ?_⟩
  · rw [hreach.grows.cwd, hlast.grows.cwd]
  · intro place
    rcases hstands with ⟨hnone, htree⟩ | ⟨⟨name, hname⟩, hfilled⟩
    · rcases hstandsLast with ⟨-, htree'⟩ | ⟨⟨name, hname⟩, -⟩
      · rw [htree, htree']
      · exact absurd hname (hnone name)
    · rcases hstandsLast with ⟨hnone, -⟩ | ⟨-, hfilled'⟩
      · exact absurd hname (hnone name)
      · exact hfilled.get?_eq hfilled' place

/-- A key and nothing else. -/
def keyField : Field where
  name := "Id"
  goType := "int64"
  column := "id"
  gormTag := "column:id;primaryKey"
  jsonTag := "id"
  comment := ""
  isPrimaryKey := true

/-- A model with a key and nothing else. -/
def keyModel (fileName structName tableName : String) : GoStruct where
  fileName := fileName
  interfaceName := fileName
  structName := structName
  tableName := tableName
  packageName := "db"
  primaryKeyType := "int64"
  fields := [keyField]

/-- Two models, two workers and a directory of templates. -/
def plainPair : Job where
  emitter := { library := .directory ⟨"tpl"⟩ }
  directory := ⟨"out"⟩
  workers := 2
  models := [keyModel "user" "User" "users", keyModel "order" "Order" "orders"]

/-- A tree with the two templates of a repository. -/
def plainTemplates : FileTree where
  nodes := [(["tpl"], .directory), (["tpl", "repo_gen.tpl"], .file (.text "a")),
    (["tpl", "repo_custom.tpl"], .file (.text "b"))]

/-- Both workers are started and take their steps in turn. -/
def alternating : List Move :=
  List.replicate 4 .submitter ++ (List.replicate 9 [.worker 1, .worker 0]).flatten ++
    List.replicate 2 .submitter

theorem alternating_agrees :
    ∃ state files,
      Reaches plainPair plainTemplates state ∧
        state.returned? = some (.ok files) ∧
        (plainPair.emitter.emit plainPair.directory plainPair.models plainTemplates).1 =
          .ok files := by
  obtain ⟨result, hresult⟩ : ∃ result,
      ((State.start plainPair plainTemplates).run plainPair alternating).bind State.returned? =
        some result :=
    Option.isSome_iff_exists.mp (by decide +kernel)
  obtain ⟨state, hrun, hret⟩ := Option.bind_eq_some_iff.mp hresult
  have hreach : Reaches plainPair plainTemplates state :=
    reaches_iff_exists_run.mpr ⟨alternating, hrun⟩
  have halone : ∀ model ∈ plainPair.models, ∃ files after,
      plainPair.emitter.emitModel plainPair.directory model plainTemplates =
        (.ok files, after) := by
    intro model hmodel
    have hall : ∀ model ∈ plainPair.models, (plainPair.emitter.emitModel plainPair.directory
        model plainTemplates).1.isOk = true := by
      decide +kernel
    obtain ⟨files, hfiles⟩ := exists_of_isOk (hall model hmodel)
    exact ⟨files, _, Prod.ext hfiles rfl⟩
  have hsame : ∀ file : ModelFile,
      plainPair.emitter.library.overrideOf? (plainPair.emitter.emit plainPair.directory
          plainPair.models plainTemplates).2 file.kind =
        plainPair.emitter.library.overrideOf? plainTemplates file.kind := by
    intro file
    have hread : ∀ file ∈ ModelFile.all,
        (plainPair.emitter.library.overrideOf? (plainPair.emitter.emit plainPair.directory
            plainPair.models plainTemplates).2 file.kind).toOption =
          (plainPair.emitter.library.overrideOf? plainTemplates file.kind).toOption ∧
        (plainPair.emitter.library.overrideOf? plainTemplates file.kind).isOk = true := by
      decide +kernel
    obtain ⟨hsame, hok⟩ := hread file (ModelFile.mem_all file)
    obtain ⟨source, hsource⟩ := exists_of_isOk hok
    rw [hsource] at hsame ⊢
    exact eq_ok_of_toOption hsame
  obtain ⟨-, -, hagrees⟩ := hreach.agrees_with_emit
  obtain ⟨files, after, hemit, rfl, -⟩ :=
    hagrees (by decide) (by decide) halone hsame result hret
  exact ⟨state, files, hreach, hret, by rw [hemit]⟩

/-! ## Templates that come into sight -/

/-- The directory of templates is reached through the output directory. -/
def detour : Job where
  emitter := { library := .directory ⟨"out/../tpl"⟩ }
  directory := ⟨"out"⟩
  workers := 1
  models := [keyModel "user" "User" "users", keyModel "order" "Order" "orders"]

/-- A tree with a template that cannot be understood. -/
def brokenTemplate : FileTree where
  nodes := [(["tpl"], .directory), (["tpl", "repo_gen.tpl"], .file (.text "{% for x in %}"))]

/-- The tree after the queries of a model. -/
def afterQueries (model : GoStruct) (text : String) : FileTree :=
  (brokenTemplate.place ["out"] .directory).place ["out", ModelFile.queries.nameFor model]
    (.file (.text text))

/-- The tree after both files of a model. -/
def afterModel (model : GoStruct) (text other : String) : FileTree :=
  (afterQueries model text).place ["out", ModelFile.custom.nameFor model] (.file (.text other))

/-- A model of the job can be emitted alone. -/
theorem detour_unit
    {model : GoStruct}
    (h : model ∈ detour.models) :
    ∃ files text other,
      detour.emitter.emitModel detour.directory model brokenTemplate =
        (.ok files, afterModel model text other) := by
  simp only [detour, List.mem_cons, List.not_mem_nil, or_false] at h
  have hvalid : (RenderContext.ofModel model detour.emitter.project).validate = .ok () := by
    rcases h with rfl | rfl <;> rfl
  obtain ⟨text, hqueries⟩ : ∃ text, detour.emitter.prepareFile detour.directory model .queries
      brokenTemplate = .ok (some text) :=
    Emitter.prepareFile_builtin .queries hvalid rfl rfl
      (by simp [ModelFile.rules, FileRules.generated])
  obtain ⟨other, hcustom⟩ : ∃ other, detour.emitter.prepareFile detour.directory model .custom
      (afterQueries model text) = .ok (some other) := by
    refine Emitter.prepareFile_builtin .custom hvalid ?_ rfl ?_
    · rcases h with rfl | rfl <;> rfl
    · rintro ⟨-, hexists⟩
      rcases h with rfl | rfl <;> cases hexists
  refine ⟨_, text, other, Emitter.emitModel_eq_ok_iff.mpr
    ⟨ModelFile.queries.record detour.directory model .written, _,
      ModelFile.custom.record detour.directory model .written,
      Emitter.emitFile_eq_ok_iff.mpr ⟨some text, hqueries, ?_⟩,
      Emitter.emitFile_eq_ok_iff.mpr ⟨some other, hcustom, ?_⟩, rfl⟩⟩
  · rcases h with rfl | rfl <;> rfl
  · rcases h with rfl | rfl <;> rfl

/-- The model after that one cannot be rendered any more. -/
theorem detour_next
    (text other : String) :
    detour.emitter.emitModel detour.directory (keyModel "order" "Order" "orders")
        (afterModel (keyModel "user" "User" "users") text other) =
      (.error (.template "repo_gen.tpl"),
        afterModel (keyModel "user" "User" "users") text other) := by
  have hparse : Template.parse? "{% for x in %}" = none :=
    Option.isNone_iff_eq_none.mp (by decide +kernel)
  have hexpand : ∀ scope, detour.emitter.library.expand? ModelFile.queries.kind scope
      (some "{% for x in %}") = none := by
    intro scope
    have hlibrary : detour.emitter.library = .directory ⟨"out/../tpl"⟩ := rfl
    rw [hlibrary, Template.Library.expand?_directory, hparse, Option.bind_none]
  have hseen : detour.emitter.library.overrideOf?
      (afterModel (keyModel "user" "User" "users") text other) ModelFile.queries.kind =
        .ok (some "{% for x in %}") := rfl
  have hvalid : (RenderContext.ofModel (keyModel "order" "Order" "orders")
      detour.emitter.project).validate = .ok () := rfl
  have hprepare : detour.emitter.prepareFile detour.directory (keyModel "order" "Order" "orders")
      .queries (afterModel (keyModel "user" "User" "users") text other) =
        .error (.template "repo_gen.tpl") := by
    simp only [Emitter.prepareFile, GeneratedFile.prepare, Emitter.render, hvalid,
      Template.Library.renderWith, hseen, hexpand]
    simp [ModelFile.rules, FileRules.generated, Except.map, ModelFile.kind, Template.Kind.key]
  unfold Emitter.emitModel ModelFile.all
  rw [List.mapM_cons]
  exact bind_error (Emitter.emitFile_of_error hprepare)

/-- The template comes into sight with the output directory, after the first model was rendered. -/
theorem detour_fails :
    (∀ model ∈ detour.models, '/' ∉ model.fileName.toList) ∧
    (detour.models.flatMap fun model =>
      ModelFile.all.map fun file => file.pathIn detour.directory model).Nodup ∧
    (∀ model ∈ detour.models, ∃ files after,
      detour.emitter.emitModel detour.directory model brokenTemplate = (.ok files, after)) ∧
    ∃ state e, Reaches detour brokenTemplate state ∧ state.returned? = some (.error e) := by
  refine ⟨by decide, by decide, ?_, ?_⟩
  · intro model hmodel
    obtain ⟨files, text, other, hunit⟩ := detour_unit hmodel
    exact ⟨files, _, hunit⟩
  · obtain ⟨state, hreach, hret, -⟩ := returns_emit detour brokenTemplate
    refine ⟨state, .emit (.template "repo_gen.tpl") [], hreach, ?_⟩
    obtain ⟨files, text, other, hunit⟩ :=
      detour_unit (List.mem_cons_self .. : keyModel "user" "User" "users" ∈ detour.models)
    have hfails : detour.emitter.emitInOrder detour.directory detour.models brokenTemplate =
        (.error (.template "repo_gen.tpl"),
          afterModel (keyModel "user" "User" "users") text other) := by
      have hmodels : detour.models =
          [keyModel "user" "User" "users", keyModel "order" "Order" "orders"] := rfl
      rw [hmodels, Emitter.emitInOrder, bind_ok hunit, Emitter.emitInOrder]
      exact bind_error (bind_error (detour_next text other))
    rw [hret, Emitter.emit_eq hfails]
    rfl

end Emission
end GormForge
