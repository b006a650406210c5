import GormForge.Proofs.Emission.Independence
import GormForge.Proofs.FileTree.Contents

/-!
# Emitting in turn

With one worker at a time the models are emitted one after the other, whatever the schedule.

**Algorithm.**  The submitter starts a worker with a permit that the worker returns at its end, so
that all workers but the last one are gone.  A worker that failed has raised the stop flag before
it returns its permit, so that nobody is started after it.  What remains to be seen is that the
last worker, stopped by nobody, comes to what emitting its model comes to: whatever it has done
already, what it would come to if it were left alone stays the same at every step.

**Results.**
* `WorkerPhase.raised_next`: a worker that failed raises the stop flag before it does anything else.
* `Reaches.inTurn`: the workers that are gone have emitted their models in order, and the last one
  is about to emit its own.
* `Reaches.emits_in_turn`: an emission with one worker returns what `Emitter.emit` gives, with the
  same tree, and a failure keeps it from all later models.
-/

namespace GormForge

open FileTree

/-! ## Emitting one after the other -/

namespace Emitter

variable {emitter : Emitter}
variable {directory : Path}
variable {model : GoStruct}
variable {front back : List GoStruct}
variable {files more : List EmittedFile}
variable {tree middle after : FileTree}
variable {e : GenerateError}

/-- Emitting two lists of models is emitting the one after the other. -/
theorem emitInOrder_append
    (front back : List GoStruct) :
    emitter.emitInOrder directory (front ++ back) = do
      let files ← emitter.emitInOrder directory front
      let more ← emitter.emitInOrder directory back
      return files ++ more := by
  induction front with
  | nil => simp [emitInOrder]
  | cons model rest ih =>
      simp only [List.cons_append, emitInOrder, ih, bind_assoc, pure_bind, List.append_assoc]

theorem emitInOrder_append_ok
    (hfront : emitter.emitInOrder directory front tree = (.ok files, middle))
    (hback : emitter.emitInOrder directory back middle = (.ok more, after)) :
    emitter.emitInOrder directory (front ++ back) tree = (.ok (files ++ more), after) := by
  rw [emitInOrder_append, bind_ok hfront, bind_ok hback, pure_apply]

theorem emitInOrder_append_error
    (hfront : emitter.emitInOrder directory front tree = (.ok files, middle))
    (hback : emitter.emitInOrder directory back middle = (.error e, after)) :
    emitter.emitInOrder directory (front ++ back) tree = (.error e, after) := by
  rw [emitInOrder_append, bind_ok hfront, bind_error hback]

theorem emitInOrder_singleton
    (h : emitter.emitModel directory model tree = (.ok files, after)) :
    emitter.emitInOrder directory [model] tree = (.ok files, after) := by
  rw [emitInOrder, bind_ok h, emitInOrder, bind_ok (pure_apply _ _), pure_apply, List.append_nil]

end Emitter

/-! ## What is there afterwards -/

/-- A file of a model is there.  Where a file is left alone because something stands at its path,
that may be a directory. -/
def ModelFile.IsIn (file : ModelFile) (directory : Path) (model : GoStruct) (tree : FileTree) :
    Prop :=
  ∃ location, tree.resolve (file.pathIn directory model) = .ok location ∧
    ((∃ content, tree.get? location = some (.file content)) ∨
      (file = .custom ∧ tree.get? location = some .directory))

theorem ModelFile.IsIn.grows
    {file : ModelFile}
    {directory : Path}
    {model : GoStruct}
    {writes : Location → Prop}
    {tree after : FileTree}
    (h : file.IsIn directory model tree)
    (hgrows : Grows writes tree after) :
    file.IsIn directory model after := by
  obtain ⟨location, hres, hnode⟩ := h
  refine ⟨location, hgrows.resolve_ok hres,
    hnode.imp ?_ fun hdir => ⟨hdir.1, hgrows.directory hdir.2⟩⟩
  rintro ⟨content, hfile⟩
  exact hgrows.file hfile

namespace Emitter

variable {emitter : Emitter}
variable {directory : Path}
variable {model : GoStruct}
variable {models : List GoStruct}
variable {file : ModelFile}
variable {files : List EmittedFile}
variable {writes : Location → Prop}
variable {tree after : FileTree}

theorem grows_emitFile
    (hwrites : ∀ location,
      tree.destination (file.pathIn directory model) = .ok location → writes location) :
    Grows writes tree (emitter.emitFile directory model file tree).2 := by
  cases hprepare : emitter.prepareFile directory model file tree with
  | error e =>
      rw [emitFile_of_error hprepare]
      exact Grows.refl _ _
  | ok prepared =>
      rw [emitFile_of_ok hprepare]
      exact grows_storeFile hwrites

/-- Emitting a model writes at the paths of its files only. -/
theorem grows_emitModel
    (hwrites : ∀ file location,
      tree.destination (ModelFile.pathIn file directory model) = .ok location →
        writes location) :
    Grows writes tree (emitter.emitModel directory model tree).2 := by
  unfold emitModel
  generalize ModelFile.all = left
  induction left generalizing tree with
  | nil => exact Grows.refl _ _
  | cons file rest ih =>
      rw [List.mapM_cons]
      refine grows_bind (grows_emitFile (hwrites file)) fun stored made hmade => ?_
      have hfile : Grows writes tree made := grows_of_eq hmade (grows_emitFile (hwrites file))
      refine grows_bind (ih fun other location hdest => ?_) fun _ _ _ => Grows.refl _ _
      rw [hfile.destination] at hdest
      exact hwrites other location hdest

/-- Emitting models writes at the paths of their files only. -/
theorem grows_emitInOrder
    (hwrites : ∀ model ∈ models, ∀ file location,
      tree.destination (ModelFile.pathIn file directory model) = .ok location →
        writes location) :
    Grows writes tree (emitter.emitInOrder directory models tree).2 := by
  induction models generalizing tree with
  | nil => exact Grows.refl _ _
  | cons model rest ih =>
      rw [emitInOrder]
      have hmodel : Grows writes tree (emitter.emitModel directory model tree).2 :=
        grows_emitModel (hwrites model (List.mem_cons_self ..))
      refine grows_bind hmodel fun files made hmade => ?_
      refine grows_bind (ih fun other hother file location hdest => ?_)
        fun _ _ _ => Grows.refl _ _
      rw [(grows_of_eq hmade hmodel).destination] at hdest
      exact hwrites other (List.mem_cons_of_mem _ hother) file location hdest

/-- A file that was emitted is there. -/
theorem isIn_of_emitFile
    {emitted : EmittedFile}
    (h : emitter.emitFile directory model file tree = (.ok emitted, after)) :
    file.IsIn directory model after := by
  obtain ⟨prepared, hprepare, hstore⟩ := emitFile_eq_ok_iff.mp h
  cases prepared with
  | none =>
      obtain ⟨hrules, hexists⟩ := GeneratedFile.prepare_eq_ok_none_iff.mp hprepare
      rw [storeFile_none] at hstore
      cases hstore
      obtain ⟨location, hres, hnode⟩ := pathExists_iff.mp hexists
      refine ⟨location, hres, ?_⟩
      cases hget : tree.get? location with
      | none => exact absurd hget hnode
      | some node =>
          cases node with
          | file content => exact Or.inl ⟨content, rfl⟩
          | directory =>
              cases file with
              | queries => cases hrules
              | custom => exact Or.inr ⟨rfl, rfl⟩
  | some text =>
      obtain ⟨-, made, -, hwrite⟩ := storeFile_some_eq_ok_iff.mp hstore
      obtain ⟨-, location, hres, hfree, rfl⟩ := write_eq_ok_iff.mp hwrite
      have hgrows : Grows (fun _ => True) made (made.place location (.file (.text text))) :=
        grows_place_file hfree trivial
      have hroot : location ≠ [] := by
        rintro rfl
        simp [get?] at hfree
      exact ⟨location, hgrows.resolve_ok hres, Or.inl ⟨.text text, by simp [hroot]⟩⟩

/-- Both files of models that were emitted are there. -/
theorem isIn_of_emitInOrder
    (h : emitter.emitInOrder directory models tree = (.ok files, after)) :
    ∀ model ∈ models, ∀ file : ModelFile, file.IsIn directory model after := by
  induction models generalizing tree files with
  | nil => simp
  | cons model rest ih =>
      obtain ⟨first, made, hfirst, hmore⟩ := bind_eq_ok_iff.mp h
      obtain ⟨others, last, hothers, hend⟩ := bind_eq_ok_iff.mp hmore
      cases hend
      have hrest : Grows (fun _ => True) made after :=
        grows_of_eq hothers (grows_emitInOrder fun _ _ _ _ _ => trivial)
      intro other hother file
      rcases List.mem_cons.mp hother with rfl | hother
      · obtain ⟨queries, middle, custom, hqueries, hcustom, -⟩ := emitModel_eq_ok_iff.mp hfirst
        have hgrows : Grows (fun _ => True) middle made :=
          grows_of_eq hcustom (grows_emitFile fun _ _ => trivial)
        cases file with
        | queries => exact ((isIn_of_emitFile hqueries).grows hgrows).grows hrest
        | custom => exact (isIn_of_emitFile hcustom).grows hrest
      · exact ih hothers other hother file

end Emitter

namespace Emission

variable {job : Job}
variable {tree : FileTree}
variable {state : State}

/-! ## A worker that failed -/

namespace WorkerPhase

variable {model : GoStruct}
variable {stopped : Bool}
variable {now after : FileTree}
variable {phase later : WorkerPhase}

/-- A worker that failed is about to raise the stop flag, or has raised it. -/
theorem raised_next
    {e : GenerateError}
    (hn : phase.next job model stopped now = some (later, after))
    (hr : later.result? = some (.error e))
    (hraised : phase.result? = some (.error e) → phase = ending (.error e) ∨ stopped = true) :
    later = ending (.error e) ∨ (stopped || phase.raises) = true := by
  cases step_of_next hn with
  | giveUp hstop => exact Or.inr (by rw [hstop]; rfl)
  | goOn | prepare => cases hr
  | refuse | spoil =>
      cases hr
      exact Or.inl rfl
  | store => exact absurd hr (result?_before_ne_error _ _ _)
  | settle =>
      cases hr
      exact Or.inr (by simp [raises])
  | send | leave =>
      rcases hraised hr with hphase | hstop
      · cases hphase
      · exact Or.inr (by rw [hstop]; rfl)

end WorkerPhase

/-- A worker that failed is about to raise the stop flag, or the flag is raised. -/
theorem Reaches.raised
    (h : Reaches job tree state) :
    ∀ worker ∈ state.workers, ∀ e, worker.phase.result? = some (.error e) →
      worker.phase = .ending (.error e) ∨ state.stopped = true := by
  induction h with
  | start => simp [State.start]
  | move move _ hmove ih =>
      have hstep := State.step_of_move hmove
      refine hstep.forall_workers ?_ ?_ ?_
      · exact fun worker hw e hr => (ih worker hw e hr).imp_right hstep.stopped_mono
      · intro model index e hr
        cases hr
      · intro worker hw later hn hflag e hr
        rw [hflag]
        exact WorkerPhase.raised_next hn hr (ih worker hw e)

/-! ## One worker at a time -/

/-- The workers before the last one have emitted their models in order, and the last one, left
alone, comes to what emitting its model after them comes to. -/
inductive InTurn (job : Job) (tree : FileTree) : List Worker → FileTree → Prop
  | idle : InTurn job tree [] tree
  | turn {front : List Worker} {last : Worker} {middle now : FileTree}
      (hgone : ∀ worker ∈ front, worker.phase = .gone (.ok worker.files))
      (hfront : job.emitter.emitInOrder job.directory (front.map Worker.model) tree =
        (.ok (front.flatMap Worker.files), middle))
      (hlast : last.phase.drain job last.model now =
        job.emitter.emitModel job.directory last.model middle) :
      InTurn job tree (front ++ [last]) now

section InTurn

variable {workers : List Worker}
variable {now : FileTree}

/-- Once all workers are gone, they have emitted their models, or the last one failed. -/
theorem InTurn.settled
    (h : InTurn job tree workers now)
    (hgone : ∀ worker ∈ workers, worker.isGone = true) :
    ((∀ worker ∈ workers, worker.phase = .gone (.ok worker.files)) ∧
      job.emitter.emitInOrder job.directory (workers.map Worker.model) tree =
        (.ok (workers.flatMap Worker.files), now)) ∨
    ∃ front last middle cause,
      workers = front ++ [last] ∧
        (∀ worker ∈ front, worker.phase = .gone (.ok worker.files)) ∧
        last.phase = .gone (.error cause) ∧
        job.emitter.emitInOrder job.directory (front.map Worker.model) tree =
          (.ok (front.flatMap Worker.files), middle) ∧
        job.emitter.emitModel job.directory last.model middle = (.error cause, now) := by
  cases h with
  | idle => exact Or.inl ⟨by simp, rfl⟩
  | @turn front last middle _ hdone hfront hlast =>
      obtain ⟨result, hphase⟩ := WorkerPhase.isGone_iff.mp (hgone last (by simp))
      rw [hphase] at hlast
      cases result with
      | error cause =>
          exact Or.inr ⟨front, last, middle, cause, rfl, hdone, hphase, hfront, hlast.symm⟩
      | ok files =>
          have hfiles : last.files = files := by simp [Worker.files, hphase, WorkerPhase.result?]
          refine Or.inl ⟨?_, ?_⟩
          · intro worker hw
            rcases List.mem_append.mp hw with hw | hw
            · exact hdone worker hw
            · rw [List.mem_singleton.mp hw, hphase, hfiles]
          · rw [List.map_append, List.flatMap_append, List.map_singleton, List.flatMap_singleton,
              hfiles]
            exact Emitter.emitInOrder_append_ok hfront (Emitter.emitInOrder_singleton hlast.symm)

/-- Only the last worker can take a step. -/
theorem InTurn.work
    {front back : List Worker}
    {worker : Worker}
    {later : WorkerPhase}
    {stopped : Bool}
    {after : FileTree}
    (h : InTurn job tree (front ++ worker :: back) now)
    (hn : worker.phase.next job worker.model stopped now = some (later, after))
    (hblame : stopped = true →
      ∃ other ∈ front ++ worker :: back, other.failure?.isSome = true) :
    InTurn job tree (front ++ { worker with phase := later } :: back) after := by
  generalize hworkers : front ++ worker :: back = workers at h
  cases h with
  | idle => simp at hworkers
  | @turn done last middle _ hdone hfront hlast =>
      rcases List.eq_nil_or_concat back with rfl | ⟨others, other, rfl⟩
      · obtain ⟨rfl, hsame⟩ := List.append_inj' hworkers rfl
        cases hsame
        refine .turn hdone hfront ((WorkerPhase.drain_next hn fun hstop => ?_).trans hlast)
        -- nobody but the worker itself can have raised the flag
        obtain ⟨other, hother, hfail⟩ := hblame hstop
        obtain ⟨e, he⟩ := Option.isSome_iff_exists.mp hfail
        have hr := (Worker.failure?_eq_some_iff.mp he).1
        rcases List.mem_append.mp hother with hother | hother
        · rw [hdone other hother] at hr
          cases hr
        · rw [List.mem_singleton.mp hother] at hr
          rw [hr]
          rfl
      · -- a worker with another one behind it is gone
        rw [List.concat_eq_append, ← List.cons_append, ← List.append_assoc] at hworkers
        obtain ⟨rfl, -⟩ := List.append_inj' hworkers rfl
        rw [hdone worker (by simp)] at hn
        cases hn

end InTurn

/-- With one worker at a time, models are emitted in turn. -/
theorem Reaches.inTurn
    (h : Reaches job tree state)
    (hone : job.workers ≤ 1) :
    InTurn job tree state.workers state.tree := by
  induction h with
  | start => exact .idle
  | @move state _ move hreach hmove ih =>
      cases State.step_of_move hmove with
      | finish | enter | giveUp | join => exact ih
      | @begin model index rest hs hgo =>
          -- the submitter has the only permit, so that no worker is left
          obtain ⟨hsize, huse⟩ := hreach.permits
          have hnone : state.active = 0 := by
            have hle := state.pool.inUse_le_size
            rw [hs] at huse
            simp only [SubmitterPhase.permits] at huse
            omega
          have hgone : ∀ worker ∈ state.workers, worker.isGone = true := by
            intro worker hw
            simpa using List.countP_eq_zero.mp hnone worker hw
          rcases ih.settled hgone with ⟨hdone, hfront⟩ | ⟨front, last, _, cause, hw, -, hphase, -⟩
          · refine .turn hdone hfront ?_
            rw [WorkerPhase.drain_before, Emitter.emitRest_all]
          · have hr : last.phase.result? = some (.error cause) := by
              rw [hphase]
              rfl
            rcases hreach.raised last (by simp [hw]) cause hr with hending | hstop
            · rw [hphase] at hending
              cases hending
            · rw [hgo] at hstop
              cases hstop
      | @work front back worker later after hw hn =>
          rw [hw] at ih
          exact ih.work hn (hw ▸ hreach.blame.1)

/-! ## One worker -/

/-- The files of different models go to different places. -/
def Job.Apart (job : Job) (tree : FileTree) : Prop :=
  job.models.Pairwise fun first second => ∀ (file other : ModelFile) (location : Location),
    tree.destination (file.pathIn job.directory first) = .ok location →
      tree.destination (other.pathIn job.directory second) ≠ .ok location

/-- Files with different names go to different places. -/
theorem Job.apart_of_nodup
    (hslash : ∀ model ∈ job.models, '/' ∉ model.fileName.toList)
    (hnames : job.names.Nodup)
    (tree : FileTree) :
    job.Apart tree := by
  refine (List.nodup_flatMap.mp hnames).2.imp_of_mem ?_
  intro first second hfirst hsecond hdisjoint file other location hdest hsame
  obtain ⟨directory, -, rfl⟩ :=
    destination_child (ModelFile.isName_nameFor (hslash first hfirst) file) hdest
  obtain ⟨directory', -, heq⟩ :=
    destination_child (ModelFile.isName_nameFor (hslash second hsecond) other) hsame
  have hname : file.nameFor first = other.nameFor second := by
    simpa using (List.append_inj' heq rfl).2
  exact hdisjoint (mem_namesOf file first) (hname ▸ mem_namesOf other second)

/-- Emitting the first models leaves the files of the others as they are. -/
theorem Job.Apart.content?_eq
    {started back : List GoStruct}
    {later : GoStruct}
    {result : UnitResult}
    {after : FileTree}
    {file : ModelFile}
    {location : Location}
    (hapart : job.Apart tree)
    (hmodels : job.models = started ++ back)
    (hstarted : job.emitter.emitInOrder job.directory started tree = (result, after))
    (hlater : later ∈ back)
    (hdest : tree.destination (file.pathIn job.directory later) = .ok location) :
    after.content? location = tree.content? location := by
  have hgrows : Grows (fun place => ∃ earlier ∈ started, ∃ other : ModelFile,
      tree.destination (other.pathIn job.directory earlier) = .ok place) tree after :=
    grows_of_eq hstarted (Emitter.grows_emitInOrder fun earlier hearlier other place hplace =>
      ⟨earlier, hearlier, other, hplace⟩)
  apply hgrows.content?
  rintro ⟨earlier, hearlier, other, hother⟩
  unfold Job.Apart at hapart
  rw [hmodels] at hapart
  exact (List.pairwise_append.mp hapart).2.2 earlier hearlier later hlater other file location
    hother hdest

/-- What an emission with one worker has returned: the files of all models, or the failure of the
last model that had a worker. -/
theorem Reaches.of_returned
    {result : UnitResult}
    (h : Reaches job tree state)
    (hone : job.workers ≤ 1)
    (hret : state.returned? = some result) :
    (∃ files, result = .ok files ∧
      job.emitter.emitInOrder job.directory job.models tree = (.ok files, state.tree)) ∨
    ∃ front model back files middle cause,
      job.models = front ++ model :: back ∧
        state.workers.map Worker.model = front ++ [model] ∧
        job.emitter.emitInOrder job.directory front tree = (.ok files, middle) ∧
        job.emitter.emitModel job.directory model middle = (.error cause, state.tree) ∧
        result = .error (.emit cause []) := by
  obtain ⟨hgone, rfl⟩ := h.returned hret
  rcases (h.inTurn hone).settled hgone with
    ⟨hdone, hfront⟩ | ⟨front, last, middle, cause, hworkers, hdone, hphase, hfront, hlast⟩
  · left
    have hperm := h.sent_perm
    rw [h.reports_eq hdone] at hperm
    have hok := collect_eq_ok hperm
    obtain ⟨hentries, -, -⟩ := h.of_returned_ok (hret.trans (congrArg some hok))
    have hmodels : state.workers.map Worker.model = job.models := map_model_of_entries hentries
    rw [hmodels, List.flatMap_def] at hfront
    exact ⟨_, hok, hfront⟩
  · right
    obtain ⟨left, hentries, -⟩ := h.entries
    have hmodels : job.models = front.map Worker.model ++ last.model :: left.map Prod.fst := by
      have hfst := congrArg (List.map Prod.fst) hentries
      rw [List.zipIdx_map_fst, hworkers] at hfst
      simpa [Worker.entry, Function.comp_def] using hfst.symm
    have hfailures : state.workers.filterMap Worker.failure? = [cause] := by
      have hnone : front.filterMap Worker.failure? = [] := by
        rw [List.filterMap_eq_nil_iff]
        intro worker hw
        simp [Worker.failure?, hdone worker hw, WorkerPhase.result?]
      have hown : last.failure? = some cause :=
        Worker.failure?_eq_some_iff.mpr
          ⟨by rw [hphase]; rfl, isCancelled_of_emitModel hlast⟩
      rw [hworkers, List.filterMap_append, hnone, List.filterMap_cons, hown]
      rfl
    have hperm := h.failuresOf_perm hgone
    rw [hfailures, List.perm_singleton] at hperm
    refine ⟨front.map Worker.model, last.model, left.map Prod.fst, _, middle, cause, hmodels,
      by simp [hworkers], hfront, hlast, ?_⟩
    exact collect_eq_error_iff.mpr ⟨cause, [], hperm, rfl⟩

/-- **One worker emits in turn.**  With one worker every schedule ends, after at most eleven moves
for each model and two more, and as long as the emission has not returned somebody can move.  It
returns what emitting the models one after the other gives, with the same tree.  If that is a
failure, then it is the only one, and that of the first model that fails: the models before it were
emitted and both files of each of them are there, and none behind it was started, so that no file
of them has changed if different models have their files at different places. -/
theorem Reaches.emits_in_turn
    (h : Reaches job tree state)
    (hone : job.workers ≤ 1) :
    (∀ schedule after, (State.start job tree).run job schedule = some after →
      schedule.length ≤ 11 * job.models.length + 2) ∧
    (state.returned? = none → ∃ move, (state.move job move).isSome = true) ∧
    ∀ result, state.returned? = some result →
      job.emitter.emit job.directory job.models tree = (result, state.tree) ∧
      ∀ e, result = .error e → ∃ front model back files middle cause,
        job.models = front ++ model :: back ∧
          e = .emit cause [] ∧
          job.emitter.emitInOrder job.directory front tree = (.ok files, middle) ∧
          job.emitter.emitModel job.directory model middle = (.error cause, state.tree) ∧
          (∀ earlier ∈ front, ∀ file : ModelFile,
            file.IsIn job.directory earlier state.tree) ∧
          state.workers.map Worker.model = front ++ [model] ∧
          (job.Apart tree → ∀ later ∈ back, ∀ (file : ModelFile) (location : Location),
            tree.destination (file.pathIn job.directory later) = .ok location →
              state.tree.content? location = tree.content? location) := by
  refine ⟨?_, h.exists_move, ?_⟩
  · intro schedule after hrun
    have hmoves := State.run_length_le hrun
    have hstart : (State.start job tree).movesLeft = 11 * job.models.length + 2 := by
      simp [State.movesLeft, State.start, SubmitterPhase.stepsLeft]
    omega
  · intro result hret
    rcases h.of_returned hone hret with
      ⟨files, rfl, horder⟩ | ⟨front, model, back, files, middle, cause, hmodels, hworkers, hfront,
        hmodel, rfl⟩
    · exact ⟨Emitter.emit_eq horder, fun e he => by cases he⟩
    · have hstarted : job.emitter.emitInOrder job.directory (front ++ [model]) tree =
          (.error cause, state.tree) :=
        Emitter.emitInOrder_append_error hfront (bind_error hmodel)
      have horder : job.emitter.emitInOrder job.directory job.models tree =
          (.error cause, state.tree) := by
        rw [hmodels]
        exact Emitter.emitInOrder_append_error hfront (bind_error hmodel)
      have hlast : Grows (fun _ => True) middle state.tree :=
        grows_of_eq hmodel (Emitter.grows_emitModel fun _ _ _ => trivial)
      refine ⟨Emitter.emit_eq horder, fun e he => ?_⟩
      cases he
      refine ⟨front, model, back, files, middle, cause, hmodels, rfl, hfront, hmodel, ?_, hworkers,
        ?_⟩
      · intro earlier hearlier file
        exact (Emitter.isIn_of_emitInOrder hfront earlier hearlier file).grows hlast
      · intro hapart later hlater file location hdest
        exact hapart.content?_eq (by rw [hmodels, List.append_assoc]; rfl) hstarted hlater hdest

/-- Three models, the second one without fields, and no more workers than there must be. -/
def oneByOne : Job where
  emitter := { library := .directory ⟨"tpl"⟩ }
  directory := ⟨"out"⟩
  workers := 0
  models := [keyModel "user" "User" "users",
    ⟨"order", "order", "Order", "orders", "db", "int64", []⟩, keyModel "item" "Item" "items"]

/-- The second worker fails, and the submitter has a permit when it sees the flag. -/
def secondFails : List Move :=
  List.replicate 2 .submitter ++ List.replicate 9 (.worker 0) ++
    List.replicate 2 .submitter ++ List.replicate 5 (.worker 1) ++ List.replicate 3 .submitter

theorem secondFails_in_turn :
    ∃ state cause,
      Reaches oneByOne plainTemplates state ∧
        oneByOne.workers ≤ 1 ∧
        state.returned? = some (.error (.emit cause [])) ∧
        cause.message = "cannot render 'Order': no fields" ∧
        oneByOne.emitter.emit oneByOne.directory oneByOne.models plainTemplates =
          (.error (.emit cause []), state.tree) ∧
        (∀ file : ModelFile, file.IsIn ⟨"out"⟩ (keyModel "user" "User" "users") state.tree) ∧
        ∀ (file : ModelFile) (location : Location),
          plainTemplates.destination (file.pathIn ⟨"out"⟩ (keyModel "item" "Item" "items")) =
              .ok location →
            state.tree.content? location = plainTemplates.content? location := by
  obtain ⟨state, hrun, hstate⟩ : ∃ state,
      (State.start oneByOne plainTemplates).run oneByOne secondFails = some state ∧
        (state.workers.length == 2 && state.returned?.any fun result =>
          match result with
          | .error e => e.message == "cannot render 'Order': no fields"
          | .ok _ => false) = true :=
    (Option.any_eq_true _ _).mp (by decide +kernel)
  rw [Bool.and_eq_true, beq_iff_eq, Option.any_eq_true] at hstate
  obtain ⟨hcount, result, hret, hmessage⟩ := hstate
  have hreach : Reaches oneByOne plainTemplates state :=
    reaches_iff_exists_run.mpr ⟨secondFails, hrun⟩
  obtain ⟨-, -, hend⟩ := hreach.emits_in_turn (by decide)
  obtain ⟨hemit, hfail⟩ := hend _ hret
  cases result with
  | ok files => cases hmessage
  | error e =>
      obtain ⟨front, model, back, files, middle, cause, hmodels, rfl, -, -, hthere, hworkers,
        hlater⟩ := hfail e rfl
      have hlength := congrArg List.length hworkers
      obtain ⟨first, rfl⟩ : ∃ first, front = [first] := by
        rw [← List.length_eq_one_iff]
        simp only [List.length_map, List.length_append, List.length_singleton] at hlength
        omega
      cases hmodels
      have hapart : oneByOne.Apart plainTemplates :=
        Job.apart_of_nodup (by decide) (by decide) plainTemplates
      exact ⟨state, cause, hreach, by decide, hret, beq_iff_eq.mp hmessage, hemit,
        hthere _ (List.mem_singleton_self _), hlater hapart _ (List.mem_singleton_self _)⟩

end Emission
end GormForge
