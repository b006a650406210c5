import GormForge.Proofs.Emission.Names
import GormForge.Proofs.FileTree.Entries

/-!
# Emissions into a directory that exists

Such an emission makes no directories, so that all it does is to write the files of its models
one by one.

**Input.**  The output directory lies at a location, and the files of the models have different
names.

**Results.**
* `WorkerPhase.writes_next`: a step changes nothing or writes the file of a worker.
* `Reaches.keeps`: what a worker has prepared fits the tree until the worker writes it, and what
  it has stored stays in place.
* `Reaches.stored`: after an emission that returned files, all of them are in place.
* `Job.Idle.fits`: an emission whose files are all in place changes nothing.
-/

namespace GormForge
namespace Emission

open FileTree

variable {job : Job}
variable {tree seen now after : FileTree}
variable {location : Location}
variable {model : GoStruct}
variable {file : ModelFile}
variable {prepared : Option String}
variable {state : State}

/-- The locations of the files of a job whose output directory lies at a location. -/
def Job.Fills (job : Job) (location place : Location) : Prop :=
  ∃ model ∈ job.models, ∃ file : ModelFile, place = location ++ [file.nameFor model]

/-! ## Files -/

/-- Storing a file of a model writes that file only. -/
theorem refills_storeFile
    (hheld : Holds tree job.directory location)
    (hname : Path.IsName (file.nameFor model))
    (prepared : Option String) :
    Refills (fun place => tree.resolve (file.pathIn job.directory model) = .ok place) tree
      (Emitter.storeFile job.directory model file prepared tree).2 := by
  rw [Emitter.snd_storeFile]
  exact GeneratedFile.refills_store hheld hname prepared fun _ hres => hres

/-- A file was prepared, and nothing was put in its place since. -/
def Prepared (job : Job) (location : Location) (model : GoStruct) (file : ModelFile)
    (prepared : Option String) (now : FileTree) : Prop :=
  ∃ seen,
    job.emitter.prepareFile job.directory model file seen = .ok prepared ∧
      Refills (job.Fills location) seen now ∧
      now.get? (location ++ [file.nameFor model]) = seen.get? (location ++ [file.nameFor model])

/-- A file was prepared, and what was prepared is in place. -/
def Stored (job : Job) (location : Location) (model : GoStruct) (file : ModelFile)
    (now : FileTree) : Prop :=
  ∃ seen prepared,
    job.emitter.prepareFile job.directory model file seen = .ok prepared ∧
      Refills (job.Fills location) seen now ∧
      GeneratedFile.InPlace (file.pathIn job.directory model) prepared now

section Elsewhere

variable {name : String}

theorem Prepared.refills
    (h : Prepared job location model file prepared now)
    (hrefills : Refills (fun place => place = location ++ [name]) now after)
    (hfills : job.Fills location (location ++ [name]))
    (hne : name ≠ file.nameFor model) :
    Prepared job location model file prepared after := by
  obtain ⟨seen, hprepare, hseen, hplace⟩ := h
  refine ⟨seen, hprepare, hseen.trans (hrefills.mono ?_), ?_⟩
  · rintro _ rfl
    exact hfills
  · rw [hrefills.get?_eq, hplace]
    intro heq
    exact hne (by simpa using heq.symm)

theorem Stored.refills
    (h : Stored job location model file now)
    (hheld : Holds now job.directory location)
    (hname : Path.IsName (file.nameFor model))
    (hrefills : Refills (fun place => place = location ++ [name]) now after)
    (hfills : job.Fills location (location ++ [name]))
    (hne : name ≠ file.nameFor model) :
    Stored job location model file after := by
  obtain ⟨seen, prepared, hprepare, hseen, hplace⟩ := h
  refine ⟨seen, prepared, hprepare, hseen.trans (hrefills.mono ?_), ?_⟩
  · rintro _ rfl
    exact hfills
  · refine hplace.grows hrefills.toGrows fun place hres heq => hne ?_
    rw [hheld.eq_of_resolve_child hname hres] at heq
    simpa using heq.symm

end Elsewhere

/-- A file for queries written by hand is prepared only where there is none. -/
theorem Prepared.notFile
    {text : String}
    {place : Location}
    (h : Prepared job location model .custom (some text) now)
    (hheld : Holds now job.directory location)
    (hname : Path.IsName (ModelFile.custom.nameFor model))
    (hres : now.resolve (ModelFile.custom.pathIn job.directory model) = .ok place)
    (content : Content) :
    now.get? place ≠ some (.file content) := by
  obtain ⟨seen, hprepare, hseen, hplace⟩ := h
  intro hfile
  obtain rfl := hheld.eq_of_resolve_child hname hres
  rw [hplace] at hfile
  have hexists : seen.pathExists (ModelFile.custom.pathIn job.directory model) = true := by
    simp [FileTree.pathExists, lookup, hseen.resolve_ok_iff.mp hres, hfile, Except.isOk,
      Except.toBool]
  exact (GeneratedFile.prepare_eq_ok_some_iff.mp hprepare).1 ⟨rfl, hexists⟩

/-- A file that could be stored is in place. -/
theorem Prepared.store
    (h : Prepared job location model file prepared now)
    (hheld : Holds now job.directory location)
    (hmodel : model ∈ job.models)
    (hname : Path.IsName (file.nameFor model))
    {stored : EmittedFile}
    (hstore : Emitter.storeFile job.directory model file prepared now = (.ok stored, after)) :
    Stored job location model file after ∧
      Refills (fun place => place = location ++ [file.nameFor model]) now after := by
  obtain ⟨seen, hprepare, hseen, -⟩ := h
  have hrefills := (refills_storeFile hheld hname prepared).mono fun _ hres =>
    hheld.eq_of_resolve_child hname hres
  rw [hstore] at hrefills
  refine ⟨⟨seen, prepared, hprepare, hseen.trans (hrefills.mono ?_), ?_⟩, hrefills⟩
  · rintro _ rfl
    exact ⟨model, hmodel, file, rfl⟩
  · cases prepared with
    | none =>
        obtain ⟨-, hexists⟩ := GeneratedFile.prepare_eq_ok_none_iff.mp hprepare
        exact hrefills.pathExists (hseen.pathExists hexists)
    | some text =>
        obtain ⟨result, hresult, -⟩ := Emitter.storeFile_eq_ok_iff.mp hstore
        exact GeneratedFile.inPlace_store hresult

/-! ## Workers -/

namespace WorkerPhase

variable {phase later : WorkerPhase}

/-- The files that a worker has before it. -/
def left : WorkerPhase → List ModelFile
  | asking file rest _ | rendering file rest _ | writing file _ rest _ => file :: rest
  | _ => []

@[simp] theorem left_before
    (emitted : List EmittedFile)
    (files : List ModelFile) :
    (before emitted files).left = files := by
  cases files <;> rfl

/-- A step changes nothing or writes the file of a worker. -/
theorem writes_next
    (hheld : Holds tree job.directory location)
    (hnames : ∀ file : ModelFile, Path.IsName (file.nameFor model))
    {stopped : Bool}
    (hn : phase.next job model stopped tree = some (later, after)) :
    after = tree ∨
      ∃ file text rest emitted,
        phase = writing file (some text) rest emitted ∧
          Refills (fun place => tree.resolve (file.pathIn job.directory model) = .ok place)
            tree after := by
  rcases next_tree hn with rfl | ⟨file, prepared, rest, emitted, rfl, rfl⟩
  · exact Or.inl rfl
  · cases prepared with
    | none => exact Or.inl (by rw [Emitter.storeFile_none])
    | some text =>
        exact Or.inr ⟨file, text, rest, emitted, rfl, refills_storeFile hheld (hnames file) _⟩

/-- What a worker has prepared fits the tree, and what it has stored is in place unless it
failed. -/
structure Keeps (job : Job) (location : Location) (model : GoStruct) (now : FileTree)
    (phase : WorkerPhase) : Prop where
  prepared : ∀ {file text rest emitted},
    phase = writing file text rest emitted → Prepared job location model file text now
  stored : (∀ e, phase.result? ≠ some (.error e)) →
    ∀ file, file ∉ phase.left → Stored job location model file now

theorem keeps_start
    (job : Job)
    (location : Location)
    (model : GoStruct)
    (now : FileTree) :
    (before [] ModelFile.all).Keeps job location model now where
  prepared h := by cases h
  stored _ file hfile := by cases file <;> simp [before, left, ModelFile.all] at hfile

theorem Keeps.refills
    {name : String}
    (h : phase.Keeps job location model now)
    (hheld : Holds now job.directory location)
    (hnames : ∀ file : ModelFile, Path.IsName (file.nameFor model))
    (hrefills : Refills (fun place => place = location ++ [name]) now after)
    (hfills : job.Fills location (location ++ [name]))
    (hne : ∀ file : ModelFile, name ≠ file.nameFor model) :
    phase.Keeps job location model after where
  prepared hphase := (h.prepared hphase).refills hrefills hfills (hne _)
  stored hfine file hfile :=
    (h.stored hfine file hfile).refills hheld (hnames file) hrefills hfills (hne file)

theorem keeps_before
    {emitted : List EmittedFile}
    {rest : List ModelFile}
    (h : ∀ file, file ∉ rest → Stored job location model file now) :
    (before emitted rest).Keeps job location model now := by
  refine ⟨fun hphase => ?_, fun _ file hfile => h file (by simpa using hfile)⟩
  cases rest <;> cases hphase

/-- A step of a worker keeps what it has prepared and stored. -/
theorem Keeps.next
    (h : phase.Keeps job location model now)
    (hheld : Holds now job.directory location)
    (hmodel : model ∈ job.models)
    (hnames : ∀ file : ModelFile, Path.IsName (file.nameFor model))
    {stopped : Bool}
    (hn : phase.next job model stopped now = some (later, after)) :
    later.Keeps job location model after := by
  cases step_of_next hn with
  | giveUp | refuse | spoil =>
      exact ⟨fun hphase => (by cases hphase), fun hfine => absurd rfl (hfine _)⟩
  | goOn => exact ⟨fun hphase => (by cases hphase), fun _ => h.stored (by simp [result?])⟩
  | prepare hprepare =>
      refine ⟨fun hphase => ?_, fun _ => h.stored (by simp [result?])⟩
      cases hphase
      exact ⟨now, hprepare, Refills.refl _ _, rfl⟩
  | @store file prepared rest emitted stored after hstore =>
      have hstored := h.stored (by simp [result?])
      obtain ⟨hown, hrefills⟩ := (h.prepared rfl).store hheld hmodel (hnames file) hstore
      apply keeps_before
      intro other hother
      by_cases hsame : other = file
      · subst hsame
        exact hown
      · have hdiff : file.nameFor model ≠ other.nameFor model :=
          fun heq => hsame (ModelFile.eq_of_nameFor_eq heq).symm
        exact (hstored other (by simp [left, hsame, hother])).refills hheld (hnames other)
          hrefills ⟨model, hmodel, file, rfl⟩ hdiff
  | settle | send | leave => exact ⟨fun hphase => (by cases hphase), h.stored⟩

end WorkerPhase

/-! ## States -/

/-- An emission from a tree in which the output directory lies at a location. -/
structure Job.Settles (job : Job) (tree : FileTree) (location : Location) : Prop where
  held : Holds tree job.directory location
  noSlash : ∀ model ∈ job.models, '/' ∉ model.fileName.toList
  names : job.names.Nodup

theorem Job.Settles.isName
    (h : job.Settles tree location)
    (hmodel : model ∈ job.models)
    (file : ModelFile) :
    Path.IsName (file.nameFor model) :=
  ModelFile.isName_nameFor (h.noSlash model hmodel) file

/-- A move of such an emission changes nothing or writes the file of a worker. -/
theorem Reaches.writes_move
    (hjob : job.Settles tree location)
    (h : Reaches job tree state)
    (hheld : Holds state.tree job.directory location)
    {move : Move}
    {next : State}
    (hmove : state.move job move = some next) :
    next.tree = state.tree ∨
      ∃ worker ∈ state.workers, ∃ file text rest emitted,
        worker.phase = .writing file (some text) rest emitted ∧
          Refills (fun place =>
            state.tree.resolve (file.pathIn job.directory worker.model) = .ok place)
              state.tree next.tree := by
  cases State.step_of_move hmove with
  | finish | enter | giveUp | begin | join => exact Or.inl rfl
  | @work front back worker later made hw hn =>
      have hin : worker ∈ state.workers := by simp [hw]
      rcases WorkerPhase.writes_next hheld (hjob.isName (h.model_mem hin)) hn with
        heq | ⟨file, text, rest, emitted, hphase, hrefills⟩
      · exact Or.inl heq
      · exact Or.inr ⟨worker, hin, file, text, rest, emitted, hphase, hrefills⟩

/-- Such an emission makes no directories. -/
theorem Reaches.refills
    (hjob : job.Settles tree location)
    (h : Reaches job tree state) :
    Refills (job.Fills location) tree state.tree := by
  induction h with
  | start => exact Refills.refl _ _
  | @move state next move hreach hmove ih =>
      have hheld := hjob.held.grows ih.toGrows
      rcases hreach.writes_move hjob hheld hmove with
        heq | ⟨worker, hin, file, text, rest, emitted, -, hrefills⟩
      · rw [heq]
        exact ih
      · refine ih.trans (hrefills.mono fun place hres => ?_)
        have hmodel := hreach.model_mem hin
        exact ⟨worker.model, hmodel, file,
          hheld.eq_of_resolve_child (hjob.isName hmodel file) hres⟩

/-- Such an emission keeps a tree proper. -/
theorem Reaches.proper
    (hjob : job.Settles tree location)
    (hproper : Proper tree)
    (h : Reaches job tree state) :
    Proper state.tree := by
  refine hproper.refills (h.refills hjob) ?_
  rintro _ ⟨model, hmodel, file, rfl⟩
  refine isProper_append (hproper.named ?_) (hjob.isName hmodel file)
  simp [hjob.held.directory]

/-- What the workers have prepared fits the tree, and what they have stored is in place. -/
theorem Reaches.keeps
    (hjob : job.Settles tree location)
    (h : Reaches job tree state) :
    ∀ worker ∈ state.workers, worker.phase.Keeps job location worker.model state.tree := by
  induction h with
  | start => simp [State.start]
  | @move state next move hreach hmove ih =>
      have hheld := hjob.held.grows (hreach.refills hjob).toGrows
      cases State.step_of_move hmove with
      | finish | enter | giveUp | join => exact ih
      | begin hs hgo =>
          intro worker hw
          rcases List.mem_append.mp hw with hw | hw
          · exact ih worker hw
          · rw [List.mem_singleton.mp hw]
            exact WorkerPhase.keeps_start job location _ _
      | @work front back worker later after hw hn =>
          have hin : worker ∈ state.workers := by simp [hw]
          have hmodel := hreach.model_mem hin
          refine forall_mem_middle_iff.mpr ⟨?_, fun other hother => ?_⟩
          · exact (ih worker hin).next hheld hmodel (hjob.isName hmodel) hn
          · -- the worker that moves writes none of the files of the others
            have hmem : other ∈ state.workers := hw ▸ mem_middle_iff.mpr (Or.inr hother)
            have hkeeps := ih other hmem
            rcases WorkerPhase.writes_next hheld (hjob.isName hmodel) hn with
              rfl | ⟨file, text, rest, emitted, -, hrefills⟩
            · exact hkeeps
            · have hwritten := hrefills.mono fun _ hres =>
                hheld.eq_of_resolve_child (hjob.isName hmodel file) hres
              exact hkeeps.refills hheld (hjob.isName (hreach.model_mem hmem)) hwritten
                ⟨worker.model, hmodel, file, rfl⟩
                fun file' => hreach.nameFor_ne hjob.names hw hother file file'

/-- After an emission that returned files, all of them are in place. -/
theorem Reaches.stored
    (hjob : job.Settles tree location)
    (h : Reaches job tree state)
    {files : List EmittedFile}
    (hret : state.returned? = some (.ok files))
    (hmodel : model ∈ job.models)
    (file : ModelFile) :
    Stored job location model file state.tree := by
  obtain ⟨hentries, hdone, -⟩ := h.of_returned_ok hret
  rw [← map_model_of_entries hentries] at hmodel
  obtain ⟨worker, hw, rfl⟩ := List.mem_map.mp hmodel
  refine (h.keeps hjob worker hw).stored ?_ file ?_
  · rw [hdone worker hw]
    simp [WorkerPhase.result?]
  · rw [hdone worker hw]
    simp [WorkerPhase.left]

/-! ## Nothing to do -/

/-- What would be written to a file of a model. -/
def Job.planAt (job : Job) (tree : FileTree) (model : GoStruct) (file : ModelFile) :
    Option String :=
  match job.emitter.prepareFile job.directory model file tree with
  | .ok prepared => prepared
  | .error _ => none

theorem Job.planAt_eq
    (h : job.emitter.prepareFile job.directory model file tree = .ok prepared) :
    job.planAt tree model file = prepared := by
  unfold planAt
  rw [h]

/-- All files of a job are prepared as planned and in place. -/
structure Job.Idle (job : Job) (plan : GoStruct → ModelFile → Option String) (tree : FileTree) :
    Prop where
  prepares : ∀ model ∈ job.models, ∀ file,
    job.emitter.prepareFile job.directory model file tree = .ok (plan model file)
  stores : ∀ model ∈ job.models, ∀ file : ModelFile,
    GeneratedFile.store (file.pathIn job.directory model) (plan model file) tree =
      (.ok (GeneratedFile.resultOf (plan model file)), tree)

/-- An emission whose files are all in place changes nothing and keeps to the plan. -/
theorem Job.Idle.fits
    {plan : GoStruct → ModelFile → Option String}
    (hidle : job.Idle plan tree)
    (h : Reaches job tree state) :
    state.tree = tree ∧ state.Fits job plan := by
  induction h with
  | start => exact ⟨rfl, State.fits_start job plan tree⟩
  | @move state next move hreach hmove ih =>
      obtain ⟨htree, hfits⟩ := ih
      cases State.step_of_move hmove with
      | finish | enter | join => exact ⟨htree, hfits.running, hfits.workers⟩
      | giveUp hs hstop =>
          rw [hfits.running] at hstop
          cases hstop
      | begin hs hgo => exact ⟨htree, hfits.begin _ _ _⟩
      | @work front back worker later after hw hn =>
          have hin : worker ∈ state.workers := by simp [hw]
          have hmodel := hreach.model_mem hin
          rw [hfits.running, htree] at hn
          have hstore : ∀ file : ModelFile,
              Emitter.storeFile job.directory worker.model file (plan worker.model file) tree =
                (.ok (ModelFile.planned job.directory worker.model (plan worker.model) file),
                  tree) := fun file =>
            Emitter.storeFile_eq_ok_iff.mpr ⟨_, hidle.stores worker.model hmodel file, rfl⟩
          obtain ⟨hlater, hquiet, hcases⟩ := (hfits.workers worker hin).next hn
            (fun file _ _ _ => hidle.prepares worker.model hmodel file)
            fun file _ _ _ => ⟨tree, hstore file⟩
          have hsame : after = tree := by
            rcases hcases with ⟨rfl, -⟩ | ⟨file, _, _, -, hmade, -⟩
            · rfl
            · rw [hstore file] at hmade
              cases hmade
              rfl
          exact ⟨hsame, hfits.work hw hquiet hlater⟩

end Emission
end GormForge
