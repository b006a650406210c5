import GormForge.Proofs.Emission.Keeping
import Mathlib.Data.List.Lattice
import Mathlib.Data.List.Pairwise

/-!
# Files that an emission leaves alone

When an emission into a directory that exists comes to write a file, and when it does not.

**Input.**  The output directory lies at a location, and the files of the models have different
names.

**Algorithm.**  A worker writes a file only after it was rendered, formatted and prepared, and
goes to its files one after the other.  It writes nothing once it has come to a result.  No other
worker writes its files.

**Results.**
* `Reaches.refills_prepared`: only files that could be prepared are written.
* `Reaches.get?_of_left`: a file that its worker has still before it is as it was.
* `Reaches.get?_of_result`: the files of a worker that has come to a result stay as they are.
* `Reaches.get?_of_unprepared`: a file that could not be prepared is left alone.
-/

namespace GormForge
namespace Emission

open FileTree

variable {job : Job}
variable {tree after : FileTree}
variable {location : Location}
variable {model other : GoStruct}
variable {file : ModelFile}
variable {state next : State}

/-! ## Prepared files -/

/-- The locations of the files of a job for which a text is prepared at some time. -/
def Job.Prepares (job : Job) (location place : Location) : Prop :=
  ∃ model ∈ job.models, ∃ file seen text,
    job.emitter.prepareFile job.directory model file seen = .ok (some text) ∧
      place = location ++ [file.nameFor model]

/-- An emission writes only files for which a text was prepared. -/
theorem Reaches.refills_prepared
    (hjob : job.Settles tree location)
    (h : Reaches job tree state) :
    Refills (job.Prepares location) tree state.tree := by
  induction h with
  | start => exact Refills.refl _ _
  | @move state next move hreach hmove ih =>
      have hheld := hjob.held.grows ih.toGrows
      rcases hreach.writes_move hjob hheld hmove with
        heq | ⟨worker, hin, file, text, rest, emitted, hphase, hrefills⟩
      · rw [heq]
        exact ih
      · refine ih.trans (hrefills.mono fun place hres => ?_)
        have hmodel := hreach.model_mem hin
        obtain ⟨seen, hprepare, -⟩ := (hreach.keeps hjob worker hin).prepared hphase
        exact ⟨worker.model, hmodel, file, seen, text, hprepare,
          hheld.eq_of_resolve_child (hjob.isName hmodel file) hres⟩

/-! ## Files before a worker -/

namespace WorkerPhase

variable {phase later : WorkerPhase}

/-- A worker goes through its files one after the other. -/
theorem left_next
    {stopped : Bool}
    (hn : phase.next job model stopped tree = some (later, after)) :
    later.left <:+ phase.left := by
  cases step_of_next hn with
  | giveUp | refuse | spoil => exact List.nil_suffix
  | goOn | prepare | settle | send | leave => exact List.suffix_rfl
  | store =>
      rw [left_before]
      exact List.suffix_cons _ _

/-- A file that was written is no longer before its worker. -/
theorem left_of_writing
    {file : ModelFile}
    {prepared : Option String}
    {rest : List ModelFile}
    {emitted : List EmittedFile}
    {stopped : Bool}
    (hn : (writing file prepared rest emitted).next job model stopped tree = some (later, after)) :
    later.left <:+ rest := by
  cases step_of_next hn with
  | spoil => exact List.nil_suffix
  | store => simp only [left_before, List.suffix_rfl]

end WorkerPhase

/-- The files that a worker has before it are different. -/
theorem Reaches.nodup_left
    (h : Reaches job tree state) :
    ∀ worker ∈ state.workers, worker.phase.left.Nodup := by
  induction h with
  | start => simp [State.start]
  | move move _ hmove ih =>
      have hall : ModelFile.all.Nodup := by decide
      exact (State.step_of_move hmove).forall_workers ih (fun _ _ => hall)
        fun worker hw _ hn _ => (WorkerPhase.left_next hn).sublist.nodup (ih worker hw)

/-- The files of different models have different names. -/
theorem Job.Settles.nameFor_ne
    (hjob : job.Settles tree location)
    (hmodel : model ∈ job.models)
    (hother : other ∈ job.models)
    (hne : model ≠ other)
    (file file' : ModelFile) :
    file.nameFor model ≠ file'.nameFor other := by
  have hsymm : Std.Symm (Function.onFun List.Disjoint ModelFile.namesOf) :=
    ⟨fun _ _ h => h.symm⟩
  have hdisjoint := (List.nodup_flatMap.mp hjob.names).2.forall hmodel hother hne
  intro heq
  refine hdisjoint (mem_namesOf file model) ?_
  rw [heq]
  exact mem_namesOf file' other

/-- A file that its worker has still before it, or that has no worker yet, is as it was. -/
theorem Reaches.get?_of_left
    (hjob : job.Settles tree location)
    (h : Reaches job tree state)
    (hmodel : model ∈ job.models)
    (hleft : ∀ worker ∈ state.workers, worker.model = model → file ∈ worker.phase.left) :
    state.tree.get? (location ++ [file.nameFor model]) =
      tree.get? (location ++ [file.nameFor model]) := by
  induction h with
  | start => rfl
  | @move state next move hreach hmove ih =>
      cases State.step_of_move hmove with
      | finish | enter | giveUp | join => exact ih hleft
      | begin hs hgo => exact ih fun worker hw => hleft worker (List.mem_append_left _ hw)
      | @work front back worker later after hw hn =>
          have hin : worker ∈ state.workers := by simp [hw]
          have hworker := hreach.model_mem hin
          have hheld := hjob.held.grows (hreach.refills hjob).toGrows
          have hlater : worker.model = model → file ∈ later.left :=
            hleft { worker with phase := later } (by simp)
          have hbefore := ih fun other hother hsame => by
            rw [hw] at hother
            rcases mem_middle_iff.mp hother with rfl | hother
            · exact (WorkerPhase.left_next hn).subset (hlater hsame)
            · exact hleft other (mem_middle_iff.mpr (Or.inr hother)) hsame
          rcases WorkerPhase.writes_next hheld (hjob.isName hworker) hn with
            rfl | ⟨written, text, rest, emitted, hphase, hrefills⟩
          · exact hbefore
          · refine Eq.trans ((hrefills.mono fun _ hres =>
              hheld.eq_of_resolve_child (hjob.isName hworker written) hres).get?_eq ?_) hbefore
            intro heq
            have hname := List.singleton_inj.mp (List.append_cancel_left heq)
            by_cases hsame : worker.model = model
            · -- the worker does not come back to a file that it has written
              rw [← hsame] at hname
              obtain rfl := ModelFile.eq_of_nameFor_eq hname
              have hnodup := hreach.nodup_left worker hin
              rw [hphase] at hn hnodup
              exact (List.nodup_cons.mp hnodup).1
                ((WorkerPhase.left_of_writing hn).subset (hlater hsame))
            · exact hjob.nameFor_ne hmodel hworker (Ne.symm hsame) file written hname

/-! ## Workers with a result -/

/-- After a move, a worker that has come to a result still has it, and its files are as they
were. -/
theorem Reaches.result_move
    (hjob : job.Settles tree location)
    (h : Reaches job tree state)
    {worker : Worker}
    {result : UnitResult}
    (hin : worker ∈ state.workers)
    (hresult : worker.phase.result? = some result)
    {move : Move}
    (hmove : state.move job move = some next) :
    (∃ later ∈ next.workers, later.model = worker.model ∧ later.phase.result? = some result) ∧
      next.tree.get? (location ++ [file.nameFor worker.model]) =
        state.tree.get? (location ++ [file.nameFor worker.model]) := by
  have hstep := State.step_of_move hmove
  refine ⟨hstep.exists_worker (P := fun later =>
    later.model = worker.model ∧ later.phase.result? = some result) hin ⟨rfl, hresult⟩
    fun later hn => ⟨rfl, (WorkerPhase.result?_next hn hresult).1⟩, ?_⟩
  cases hstep with
  | finish | enter | giveUp | begin | join => rfl
  | @work front back moved later after hw hn =>
      have hmoved := h.model_mem (show moved ∈ state.workers by simp [hw])
      have hheld := hjob.held.grows (h.refills hjob).toGrows
      rw [hw] at hin
      rcases mem_middle_iff.mp hin with rfl | hother
      · obtain ⟨-, rfl⟩ := WorkerPhase.result?_next hn hresult
        rfl
      · rcases WorkerPhase.writes_next hheld (hjob.isName hmoved) hn with
          rfl | ⟨written, text, rest, emitted, -, hrefills⟩
        · rfl
        · refine (hrefills.mono fun _ hres =>
            hheld.eq_of_resolve_child (hjob.isName hmoved written) hres).get?_eq ?_
          intro heq
          exact h.nameFor_ne hjob.names hw hother written file
            (List.singleton_inj.mp (List.append_cancel_left heq)).symm

/-- The files of a worker that has come to a result stay as they are. -/
theorem Reaches.get?_of_result
    (hjob : job.Settles tree location)
    (h : Reaches job tree state)
    {worker : Worker}
    {result : UnitResult}
    (hin : worker ∈ state.workers)
    (hresult : worker.phase.result? = some result)
    {schedule : List Move}
    (hrun : state.run job schedule = some next) :
    next.tree.get? (location ++ [file.nameFor worker.model]) =
      state.tree.get? (location ++ [file.nameFor worker.model]) := by
  induction schedule generalizing state worker with
  | nil =>
      cases hrun
      rfl
  | cons move rest ih =>
      obtain ⟨middle, hmove, hrest⟩ := State.run_cons_eq_some_iff.mp hrun
      obtain ⟨⟨later, hlater, hsame, hkept⟩, hplace⟩ := h.result_move hjob hin hresult hmove
      have hafter := ih (h.move move hmove) hlater hkept hrest
      rw [hsame] at hafter
      exact hafter.trans hplace

/-! ## Files that cannot be prepared -/

section Unprepared

variable {place : Nat}
variable {worker : Worker}
variable {rest : List ModelFile}
variable {emitted : List EmittedFile}
variable {e : GenerateError}

/-- A worker that cannot prepare a file ends with the failure. -/
theorem State.move_of_unprepared
    (hworker : state.workers[place]? = some worker)
    (hphase : worker.phase = .rendering file rest emitted)
    (hfail : job.emitter.prepareFile job.directory worker.model file state.tree = .error e) :
    state.move job (.worker place) =
      some (state.afterStep place worker (.ending (.error e)) state.tree) := by
  have hnext : worker.phase.next job worker.model state.stopped state.tree =
      some (.ending (.error e), state.tree) := by
    rw [hphase]
    simp only [WorkerPhase.next, hfail]
  simp only [State.move, hworker, Option.bind_some, State.stepWorker, hnext, Option.map_some]

/-- A file that could not be prepared when its turn came is as it was, and stays so. -/
theorem Reaches.get?_of_unprepared
    (hjob : job.Settles tree location)
    (h : Reaches job tree state)
    (hworker : state.workers[place]? = some worker)
    (hphase : worker.phase = .rendering file rest emitted)
    (hfail : job.emitter.prepareFile job.directory worker.model file state.tree = .error e)
    {schedule : List Move}
    (hrun : state.run job (.worker place :: schedule) = some next) :
    next.tree.get? (location ++ [file.nameFor worker.model]) =
      tree.get? (location ++ [file.nameFor worker.model]) := by
  obtain ⟨front, back, hw, hset⟩ := exists_split_of_getElem? hworker
  have hin : worker ∈ state.workers := by simp [hw]
  have hstart : state.tree.get? (location ++ [file.nameFor worker.model]) =
      tree.get? (location ++ [file.nameFor worker.model]) := by
    refine h.get?_of_left hjob (h.model_mem hin) fun other hother hsame => ?_
    rw [hw] at hother
    have hcases : other = worker ∨ other ∈ front ++ back := by
      simpa [or_left_comm] using hother
    rcases hcases with rfl | hother
    · simp [hphase, WorkerPhase.left]
    · exact absurd (by rw [hsame]) (h.nameFor_ne hjob.names hw hother file file)
  have hfailing := State.move_of_unprepared hworker hphase hfail
  obtain ⟨middle, hmove, hrest⟩ := State.run_cons_eq_some_iff.mp hrun
  obtain rfl := Option.some.inj (hfailing.symm.trans hmove)
  have hfailed : { worker with phase := .ending (.error e) } ∈
      (state.afterStep place worker (.ending (.error e)) state.tree).workers := by
    simp [State.afterStep, hset]
  exact ((h.move _ hmove).get?_of_result hjob hfailed rfl hrest).trans hstart

end Unprepared

end Emission
end GormForge
