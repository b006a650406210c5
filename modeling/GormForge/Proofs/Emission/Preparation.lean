import GormForge.Proofs.Emission.Names
import GormForge.Proofs.FileTree.Filling

/-!
# Preparing the files of an emission

What is prepared for a file does not depend on which other files were written before.

**Input.**  A plan for a tree: the directories are made once, all files lie in one directory,
and each of them can be prepared and stored when the files of its model come first.

**Results.**
* `Plan.prepareFile`: a file is prepared as planned, as long as its template reads the same.
* `Plan.storeFile`: what was planned can be stored.
* `Plan.proceeds_move`: a move keeps all workers to the plan and the tree filled with their files.
-/

namespace GormForge
namespace Emission

open FileTree

variable {job : Job}
variable {tree ground other seen : FileTree}
variable {location : Location}
variable {wanted : String → Option String}
variable {done more : String → Prop}

/-! ## Trees of an emission -/

/-- The tree of an emission that has treated some names: nothing was done yet, or the
directories were made and filled. -/
def Stands (tree ground : FileTree) (location : Location) (wanted : String → Option String)
    (done : String → Prop) (seen : FileTree) : Prop :=
  ((∀ name, ¬ done name) ∧ seen = tree) ∨
    ((∃ name, done name) ∧ Filled ground location wanted done seen)

theorem Stands.congr
    (h : Stands tree ground location wanted done seen)
    (hsame : ∀ name, done name ↔ more name) :
    Stands tree ground location wanted more seen := by
  obtain rfl : done = more := funext fun name => propext (hsame name)
  exact h

/-- Once a name was treated, the directories are there. -/
theorem Stands.filled
    (h : Stands tree ground location wanted done seen)
    {name : String}
    (hname : done name) :
    Filled ground location wanted done seen := by
  rcases h with ⟨hnone, -⟩ | ⟨-, hseen⟩
  · exact absurd hname (hnone name)
  · exact hseen

/-- What a job is going to do, in any order. -/
structure Plan (job : Job) (tree ground : FileTree) (location : Location)
    (wanted : String → Option String) : Prop where
  /-- File names hold no slash. -/
  slash : ∀ model ∈ job.models, '/' ∉ model.fileName.toList
  names : job.names.Nodup
  /-- Only directories are made besides the files. -/
  made : Grows (fun _ => False) tree ground
  parents : ∀ model ∈ job.models, ∀ file : ModelFile,
    GeneratedFile.makeParents (file.pathIn job.directory model) tree = (.ok (), ground)
  resolves : ∀ model ∈ job.models, ∀ file : ModelFile,
    ground.resolve (file.pathIn job.directory model) = .ok (location ++ [file.nameFor model])
  free : ∀ model ∈ job.models, ∀ file : ModelFile, wanted (file.nameFor model) ≠ none →
    ground.get? (location ++ [file.nameFor model]) ≠ some .directory
  queries : ∀ model ∈ job.models, wanted (ModelFile.queries.nameFor model) ≠ none
  /-- A file can be prepared when only the earlier files of its model were written. -/
  prepares : ∀ model ∈ job.models, ∀ front file rest, ModelFile.all = front ++ file :: rest →
    ∃ alone,
      Stands tree ground location wanted (fun name => name ∈ front.map (·.nameFor model)) alone ∧
        job.emitter.prepareFile job.directory model file alone =
          .ok (wanted (file.nameFor model))

/-- What is prepared for the files of a model. -/
def planOf (wanted : String → Option String) (model : GoStruct) (file : ModelFile) :
    Option String :=
  wanted (file.nameFor model)

namespace Plan

variable (hplan : Plan job tree ground location wanted)

include hplan

theorem writes
    {name : String}
    (h : name ∈ job.names) :
    job.Writes tree (location ++ [name]) := by
  obtain ⟨model, hmodel, file, rfl⟩ := exists_of_mem_names h
  refine ⟨model, hmodel, file, ?_⟩
  rw [← hplan.made.destination]
  exact destination_of_resolve (hplan.resolves model hmodel file)

theorem grows_ground :
    Grows (job.Writes tree) tree ground :=
  hplan.made.mono fun _ h => h.elim

/-- A tree with more files has grown. -/
theorem grows
    (h : Stands tree ground location wanted done seen)
    (hmore : Stands tree ground location wanted more other)
    (hsub : ∀ name, done name → more name)
    (hnames : ∀ name, more name → name ∈ job.names) :
    Grows (job.Writes tree) seen other := by
  have hfilled : ∀ {done : String → Prop} {seen : FileTree},
      (∀ name, done name → more name) →
      Filled ground location wanted done seen →
      Filled ground location wanted more other →
      Grows (job.Writes tree) seen other := by
    intro done seen hsub hseen hother
    refine hseen.grows hother hsub ?_ fun name hname => hplan.writes (hnames name hname)
    intro name hname hwanted
    obtain ⟨model, hmodel, file, rfl⟩ := exists_of_mem_names (hnames name hname)
    exact hplan.free model hmodel file hwanted
  rcases h with ⟨hnone, rfl⟩ | ⟨⟨name, hname⟩, hseen⟩
  · rcases hmore with ⟨-, rfl⟩ | ⟨-, hother⟩
    · exact Grows.refl _ _
    · have hfirst := filled_ground ground location wanted hnone
      exact hplan.grows_ground.trans (hfilled hsub hfirst hother)
  · rcases hmore with ⟨hnone, -⟩ | ⟨-, hother⟩
    · exact absurd (hsub name hname) (hnone name)
    · exact hfilled hsub hseen hother

/-- The directories are there once a name was treated. -/
theorem grows_filled
    (h : Filled ground location wanted done seen)
    (hnames : ∀ name, done name → name ∈ job.names) :
    Grows (job.Writes tree) ground seen := by
  have hfirst : Filled ground location wanted (fun _ => False) ground :=
    filled_ground ground location wanted fun _ => id
  refine hfirst.grows h (fun _ hno => hno.elim) ?_ fun name hname =>
    hplan.writes (hnames name hname)
  intro name hname hwanted
  obtain ⟨model, hmodel, file, rfl⟩ := exists_of_mem_names (hnames name hname)
  exact hplan.free model hmodel file hwanted

/-! ### Files -/

variable {model : GoStruct}
variable {file : ModelFile}
variable {front rest : List ModelFile}

/-- Writing other files does not bring a file into being. -/
theorem pathExists_filled
    (hmodel : model ∈ job.models)
    (h : Filled ground location wanted done seen)
    (hnames : ∀ name, done name → name ∈ job.names)
    (hnot : ¬ done (file.nameFor model)) :
    seen.pathExists (file.pathIn job.directory model) =
      ground.pathExists (file.pathIn job.directory model) := by
  have hpath := hplan.resolves model hmodel file
  have hin := (hplan.grows_filled h hnames).resolve_ok hpath
  simp only [pathExists, lookup, hpath, hin, h.get?_of_not_done hnot]

/-- A file is prepared as planned, as long as its template reads the same. -/
theorem prepareFile
    (hmodel : model ∈ job.models)
    (hall : ModelFile.all = front ++ file :: rest)
    (h : Stands tree ground location wanted done seen)
    (hnames : ∀ name, done name → name ∈ job.names)
    (hfront : ∀ earlier ∈ front, done (earlier.nameFor model))
    (hnot : ¬ done (file.nameFor model))
    (hsame : job.emitter.library.overrideOf? seen file.kind =
      job.emitter.library.overrideOf? tree file.kind) :
    job.emitter.prepareFile job.directory model file seen = .ok (wanted (file.nameFor model)) := by
  obtain ⟨alone, halone, hprepare⟩ := hplan.prepares model hmodel front file rest hall
  have hsub : ∀ name, name ∈ front.map (·.nameFor model) → done name := by
    intro name hname
    obtain ⟨earlier, hearlier, rfl⟩ := List.mem_map.mp hname
    exact hfront earlier hearlier
  have hfirst : Grows (job.Writes tree) tree alone :=
    hplan.grows (Or.inl ⟨fun _ => id, rfl⟩) halone (fun _ hno => hno.elim)
      fun name hname => hnames name (hsub name hname)
  have hlast : Grows (job.Writes tree) alone seen := hplan.grows halone h hsub hnames
  have hkeep : job.emitter.library.overrideOf? alone file.kind =
      job.emitter.library.overrideOf? tree file.kind :=
    Template.Library.overrideOf?_between hfirst hlast
      (fun path place _ hres => Job.not_writes_template hplan.slash hres) hsame
  have hrender : job.emitter.render job.directory model file seen =
      job.emitter.render job.directory model file alone :=
    Emitter.render_congr (hsame.trans hkeep.symm)
  rw [← hprepare]
  simp only [Emitter.prepareFile, GeneratedFile.prepare, hrender]
  cases file with
  | queries => simp [ModelFile.rules, FileRules.generated]
  | custom =>
      -- both trees have the directories, and nobody else writes this file
      obtain rfl := ModelFile.eq_earlier hall
      have hseen := h.filled (hfront .queries (by simp [ModelFile.earlier]))
      have halone' := halone.filled
        (List.mem_map.mpr ⟨.queries, by simp [ModelFile.earlier], rfl⟩)
      rw [hplan.pathExists_filled hmodel hseen hnames hnot,
        hplan.pathExists_filled hmodel halone' (fun name hname => hnames name (hsub name hname))
          fun hmem => hnot (hsub _ hmem)]

/-- What was planned for a file can be stored. -/
theorem storeFile
    (hmodel : model ∈ job.models)
    (h : Stands tree ground location wanted done seen)
    (hnames : ∀ name, done name → name ∈ job.names)
    (hnot : ¬ done (file.nameFor model))
    (hfirst : wanted (file.nameFor model) = none → ∃ name, done name) :
    ∃ after,
      Emitter.storeFile job.directory model file (wanted (file.nameFor model)) seen =
          (.ok (ModelFile.planned job.directory model (planOf wanted model) file), after) ∧
        Stands tree ground location wanted
          (fun name => done name ∨ name = file.nameFor model) after := by
  cases hwanted : wanted (file.nameFor model) with
  | none =>
      obtain ⟨name, hname⟩ := hfirst hwanted
      refine ⟨seen, ?_, Or.inr ⟨⟨name, Or.inl hname⟩, (h.filled hname).skip hwanted⟩⟩
      rw [Emitter.storeFile_none, ModelFile.planned, planOf, hwanted]
      rfl
  | some text =>
      -- the directories are made now, or were made before
      obtain ⟨made, hmade, hfilled⟩ : ∃ made,
          GeneratedFile.makeParents (file.pathIn job.directory model) seen = (.ok (), made) ∧
            Filled ground location wanted done made := by
        rcases h with ⟨hnone, rfl⟩ | ⟨-, hseen⟩
        · exact ⟨ground, hplan.parents model hmodel file,
            filled_ground ground location wanted hnone⟩
        · exact ⟨seen, GeneratedFile.makeParents_again (hplan.parents model hmodel file)
            (hplan.grows_filled hseen hnames), hseen⟩
      have hpath :=
        (hplan.grows_filled hfilled hnames).resolve_ok (hplan.resolves model hmodel file)
      have hfree : made.get? (location ++ [file.nameFor model]) ≠ some .directory := by
        rw [hfilled.get?_of_not_done hnot]
        exact hplan.free model hmodel file (by simp [hwanted])
      have hslash : (file.pathIn job.directory model).endsInSlash = false :=
        Path.endsInSlash_child (ModelFile.isName_nameFor (hplan.slash model hmodel) file)
      refine ⟨made.place (location ++ [file.nameFor model]) (.file (.text text)), ?_,
        Or.inr ⟨⟨_, Or.inr rfl⟩, hfilled.place hwanted⟩⟩
      rw [Emitter.storeFile_some_eq_ok_iff]
      refine ⟨?_, made, hmade, write_eq_ok_iff.mpr ⟨hslash, _, hpath, hfree, rfl⟩⟩
      rw [ModelFile.planned, planOf, hwanted]
      rfl

end Plan

/-! ## Moves -/

/-- All workers keep to the plan, and the tree holds what they have behind them. -/
structure Proceeds (job : Job) (tree ground : FileTree) (location : Location)
    (wanted : String → Option String) (state : State) : Prop where
  fits : state.Fits job (planOf wanted)
  stands : Stands tree ground location wanted state.Done state.tree

namespace Plan

variable {state after : State}
variable (hplan : Plan job tree ground location wanted)

theorem proceeds_start
    (job : Job)
    (tree ground : FileTree)
    (location : Location)
    (wanted : String → Option String) :
    Proceeds job tree ground location wanted (State.start job tree) where
  fits := State.fits_start job _ tree
  stands := Or.inl ⟨State.not_done_start job tree, rfl⟩

include hplan

section Work

variable {front back : List Worker}
variable {worker : Worker}
variable {file : ModelFile}
variable {rest : List ModelFile}
variable {emitted : List EmittedFile}

/-- The file that a worker is about to render is prepared as planned. -/
theorem prepareFile_worker
    (hreach : Reaches job tree state)
    (h : Proceeds job tree ground location wanted state)
    (hsame : ∀ file : ModelFile, job.emitter.library.overrideOf? state.tree file.kind =
      job.emitter.library.overrideOf? tree file.kind)
    (hw : state.workers = front ++ worker :: back)
    (hphase : worker.phase = .rendering file rest emitted) :
    job.emitter.prepareFile job.directory worker.model file state.tree =
      .ok (planOf wanted worker.model file) := by
  have hin : worker ∈ state.workers := by simp [hw]
  have hfit := h.fits.workers worker hin
  rw [hphase] at hfit
  have hall : ModelFile.all = worker.phase.behind ++ file :: rest := by
    rw [hphase]
    exact hfit.take_eq
  exact hplan.prepareFile (hreach.model_mem hin) hall h.stands
    (fun _ hdone => hreach.mem_names_of_done hdone)
    (fun earlier hearlier => ⟨worker, hin, earlier, hearlier, rfl⟩)
    (hreach.not_done hplan.names hw hall) (hsame file)

/-- What a worker is about to write can be stored. -/
theorem storeFile_worker
    (hreach : Reaches job tree state)
    (h : Proceeds job tree ground location wanted state)
    (hw : state.workers = front ++ worker :: back)
    (hphase : worker.phase = .writing file (planOf wanted worker.model file) rest emitted) :
    ∃ made,
      Emitter.storeFile job.directory worker.model file (planOf wanted worker.model file)
          state.tree =
        (.ok (ModelFile.planned job.directory worker.model (planOf wanted worker.model) file),
          made) ∧
        Stands tree ground location wanted
          (fun name => state.Done name ∨ name = file.nameFor worker.model) made := by
  have hin : worker ∈ state.workers := by simp [hw]
  have hmodel := hreach.model_mem hin
  have hfit := h.fits.workers worker hin
  rw [hphase] at hfit
  have hall : ModelFile.all = worker.phase.behind ++ file :: rest := by
    rw [hphase]
    exact hfit.2.take_eq
  refine hplan.storeFile hmodel h.stands (fun _ hdone => hreach.mem_names_of_done hdone)
    (hreach.not_done hplan.names hw hall) fun hnone => ?_
  -- only the second file may be left alone
  cases file with
  | queries => exact absurd hnone (hplan.queries worker.model hmodel)
  | custom =>
      refine ⟨_, worker, hin, .queries, ?_, rfl⟩
      rw [ModelFile.eq_earlier hall]
      simp [ModelFile.earlier]

end Work

/-- A move keeps all workers to the plan, as long as the templates read the same. -/
theorem proceeds_move
    (hreach : Reaches job tree state)
    (h : Proceeds job tree ground location wanted state)
    (hsame : ∀ file : ModelFile, job.emitter.library.overrideOf? state.tree file.kind =
      job.emitter.library.overrideOf? tree file.kind)
    {move : Move}
    (hmove : state.move job move = some after) :
    Proceeds job tree ground location wanted after := by
  cases State.step_of_move hmove with
  | finish | enter | join => exact ⟨⟨h.fits.running, h.fits.workers⟩, h.stands⟩
  | giveUp hs hstop =>
      rw [h.fits.running] at hstop
      cases hstop
  | begin hs hgo =>
      exact ⟨h.fits.begin _ _ _, h.stands.congr fun name => (State.done_begin rfl).symm⟩
  | @work front back worker later made hw hn =>
      rw [h.fits.running] at hn
      obtain ⟨hlater, hquiet, hcases⟩ := (h.fits.workers worker (by simp [hw])).next hn
        (fun _ _ _ hphase => hplan.prepareFile_worker hreach h hsame hw hphase)
        (fun _ _ _ hphase => (hplan.storeFile_worker hreach h hw hphase).imp fun _ => And.left)
      refine ⟨h.fits.work hw hquiet hlater, ?_⟩
      rcases hcases with ⟨rfl, hbehind⟩ | ⟨file, rest, emitted, hphase, hmade, hbehind⟩
      · refine h.stands.congr fun name => ?_
        rw [State.done_iff hw, State.done_iff rfl, hbehind]
      · obtain ⟨made', hmade', hstands⟩ := hplan.storeFile_worker hreach h hw hphase
        rw [hmade] at hmade'
        cases hmade'
        exact hstands.congr fun name => (State.done_work hw rfl hbehind).symm

end Plan

end Emission
end GormForge
