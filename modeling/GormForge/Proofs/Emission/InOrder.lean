import GormForge.Proofs.Emission.Results

/-!
# Emitting in order

Emitting models one after the other is what some schedule does, whatever the number of
workers.

**Algorithm.**  The submitter starts a worker and lets it run to its end before it goes on.  What a
worker would come to if it were left alone stays the same at every step of it, and the steps that it
has left get fewer.

**Results.**
* `WorkerPhase.drain_next`: a step does not change what a worker comes to in the end.
* `State.run_alone`: a worker that nobody stops comes to that.
* `returns_emit`: an emission can return what `Emitter.emit` gives, with the same tree.
-/

namespace GormForge

open FileTree

/-! ## One file after the other -/

namespace Emitter

variable {emitter : Emitter}
variable {directory : Path}
variable {model : GoStruct}
variable {file : ModelFile}
variable {tree : FileTree}

theorem emitFile_of_error
    {e : GenerateError}
    (h : emitter.prepareFile directory model file tree = .error e) :
    emitter.emitFile directory model file tree = (.error e, tree) := by
  unfold emitFile
  apply bind_error
  simp [viewE, h]

theorem emitFile_of_ok
    {prepared : Option String}
    (h : emitter.prepareFile directory model file tree = .ok prepared) :
    emitter.emitFile directory model file tree =
      storeFile directory model file prepared tree := by
  unfold emitFile
  apply bind_ok
  simp [viewE, h]

theorem isCancelled_of_emitFile
    {after : FileTree}
    {e : GenerateError}
    (h : emitter.emitFile directory model file tree = (.error e, after)) :
    e.isCancelled = false := by
  cases hprepare : emitter.prepareFile directory model file tree with
  | error cause =>
      rw [emitFile_of_error hprepare] at h
      cases h
      exact isCancelled_of_prepareFile hprepare
  | ok prepared =>
      rw [emitFile_of_ok hprepare] at h
      obtain ⟨_, rfl⟩ := storeFile_error h
      rfl

/-- The files that are left, after some that were emitted. -/
def emitRest (emitter : Emitter) (directory : Path) (model : GoStruct)
    (emitted : List EmittedFile) (rest : List ModelFile) :
    FileAction GenerateError (List EmittedFile) := do
  let more ← rest.mapM (emitter.emitFile directory model)
  return emitted ++ more

theorem emitRest_all :
    emitter.emitRest directory model [] ModelFile.all tree =
      emitter.emitModel directory model tree := by
  unfold emitRest
  change (emitter.emitModel directory model >>= pure) tree = _
  rw [bind_pure]

theorem emitRest_cons
    (emitted : List EmittedFile)
    (file : ModelFile)
    (rest : List ModelFile) :
    emitter.emitRest directory model emitted (file :: rest) tree =
      (do
        let stored ← emitter.emitFile directory model file
        emitter.emitRest directory model (emitted ++ [stored]) rest :
          FileAction GenerateError (List EmittedFile)) tree := by
  simp [emitRest, List.mapM_cons]

theorem emitInOrder_cons_ok
    {rest : List GoStruct}
    {files : List EmittedFile}
    {middle : FileTree}
    (h : emitter.emitModel directory model tree = (.ok files, middle)) :
    emitter.emitInOrder directory (model :: rest) tree =
      ((emitter.emitInOrder directory rest middle).1.map (files ++ ·),
        (emitter.emitInOrder directory rest middle).2) := by
  rw [emitInOrder, bind_ok h]
  rcases hrest : emitter.emitInOrder directory rest middle with ⟨e | more, after⟩
  · rw [bind_error hrest]
    rfl
  · rw [bind_ok hrest]
    rfl

theorem emitInOrder_cons_error
    {rest : List GoStruct}
    {e : GenerateError}
    (h : emitter.emitModel directory model tree = (.error e, after)) :
    emitter.emitInOrder directory (model :: rest) tree = (.error e, after) := by
  rw [emitInOrder, bind_error h]

/-- A failure that stops the emission is the only one. -/
theorem emit_eq
    {models : List GoStruct}
    {result : Except GenerateError (List EmittedFile)}
    (h : emitter.emitInOrder directory models tree = (result, after)) :
    emitter.emit directory models tree = (result.mapError fun e => .emit e [], after) := by
  unfold emit adapt
  rw [h]
  cases result <;> rfl

end Emitter

namespace Emission

variable {job : Job}
variable {state : State}
variable {front : List Worker}
variable {worker : Worker}
variable {model : GoStruct}
variable {index : Nat}
variable {later : WorkerPhase}
variable {after : FileTree}

/-! ## A worker that is left alone -/

namespace WorkerPhase

variable {stopped : Bool}
variable {now : FileTree}
variable {phase : WorkerPhase}

/-- What a worker comes to if it is left alone, and the tree that it leaves. -/
def drain (job : Job) (model : GoStruct) (now : FileTree) : WorkerPhase → UnitResult × FileTree
  | asking file rest emitted | rendering file rest emitted =>
      job.emitter.emitRest job.directory model emitted (file :: rest) now
  | writing file prepared rest emitted =>
      (do
        let stored ← Emitter.storeFile job.directory model file prepared
        job.emitter.emitRest job.directory model (emitted ++ [stored]) rest :
          FileAction GenerateError (List EmittedFile)) now
  | ending result | sending result | leaving result | gone result => (result, now)

theorem drain_before
    (emitted : List EmittedFile)
    (rest : List ModelFile) :
    (before emitted rest).drain job model now =
      job.emitter.emitRest job.directory model emitted rest now := by
  cases rest with
  | nil => simp [before, drain, Emitter.emitRest, pure_apply]
  | cons file rest => rfl

/-- A step of a worker that nobody stops does not change what it comes to in the end. -/
theorem drain_next
    (hn : phase.next job model stopped now = some (later, after))
    (hgo : stopped = true → phase.result?.isSome = true) :
    later.drain job model after = phase.drain job model now := by
  cases step_of_next hn with
  | giveUp hstop => cases hgo hstop
  | goOn | settle | send | leave => rfl
  | refuse hprepare =>
      rw [drain, drain, Emitter.emitRest_cons, bind_error (Emitter.emitFile_of_error hprepare)]
  | @prepare file rest emitted prepared hprepare =>
      rw [drain, drain, Emitter.emitRest_cons]
      have hemit := Emitter.emitFile_of_ok hprepare
      rcases hstore : Emitter.storeFile job.directory model file prepared _ with ⟨_ | _, _⟩
      · rw [bind_error hstore, bind_error (hemit.trans hstore)]
      · rw [bind_ok hstore, bind_ok (hemit.trans hstore)]
  | spoil hstore => rw [drain, drain, bind_error hstore]
  | store hstore => rw [drain_before, drain, bind_ok hstore]

/-- A worker that has just come to something is about to raise the stop flag if it failed. -/
theorem eq_ending_of_next
    {result : UnitResult}
    (hn : phase.next job model stopped now = some (later, after))
    (hopen : phase.result? = none)
    (hr : later.result? = some result) :
    later = ending result := by
  cases step_of_next hn with
  | giveUp | refuse | spoil =>
      cases hr
      rfl
  | goOn | prepare => cases hr
  | @store file prepared rest emitted stored after hstore =>
      cases rest with
      | nil =>
          cases hr
          rfl
      | cons other rest => cases hr
  | settle | send | leave => cases hopen

end WorkerPhase

/-! ## One worker -/

theorem State.run_cons
    {middle : State}
    {move : Move}
    (h : state.move job move = some middle)
    (rest : List Move) :
    state.run job (move :: rest) = middle.run job rest := by
  simp [State.run, h]

/-- The move of the worker that was started last. -/
theorem State.move_last
    (hw : state.workers = front ++ [worker])
    (hn : worker.phase.next job worker.model state.stopped state.tree = some (later, after)) :
    state.move job (.worker front.length) =
      some { state with
        tree := after
        pool := worker.phase.poolAfter state.pool
        stopped := state.stopped || worker.phase.raises
        workers := front ++ [{ worker with phase := later }]
        sent := state.sent ++
          (worker.phase.sends?.map fun result => (worker.index, result)).toList } := by
  simp [State.move, State.stepWorker, hn, State.afterStep, hw]

/-- The state after the worker that was started last has changed its phase and the tree. -/
def State.withLast (state : State) (front : List Worker) (worker : Worker) (phase : WorkerPhase)
    (tree : FileTree) : State :=
  { state with tree := tree, workers := front ++ [{ worker with phase := phase }] }

/-- Until it has come to something, a worker changes its phase and the tree only. -/
theorem State.move_withLast
    {phase : WorkerPhase}
    {tree : FileTree}
    (hopen : phase.result? = none)
    (hn : phase.next job worker.model state.stopped tree = some (later, after)) :
    (state.withLast front worker phase tree).move job (.worker front.length) =
      some (state.withLast front worker later after) := by
  rw [State.move_last rfl hn]
  cases phase with
  | asking | rendering | writing =>
      simp [State.withLast, WorkerPhase.poolAfter, WorkerPhase.raises, WorkerPhase.sends?]
  | ending | sending | leaving | gone => cases hopen

/-- A worker that nobody stops comes to what it comes to if it is left alone. -/
theorem State.run_alone
    {phase : WorkerPhase}
    {tree : FileTree}
    {result : UnitResult}
    (hgo : state.stopped = false)
    (hopen : phase.result? = none)
    (hdrain : phase.drain job worker.model tree = (result, after)) :
    ∃ schedule,
      (state.withLast front worker phase tree).run job schedule =
        some (state.withLast front worker (.ending result) after) := by
  induction hleft : phase.stepsLeft using Nat.strongRecOn generalizing phase tree with
  | ind left ih =>
      have hrun : phase.next job worker.model state.stopped tree ≠ none := by
        rw [Ne, WorkerPhase.next_eq_none_iff, WorkerPhase.isGone_iff]
        rintro ⟨result, rfl⟩
        cases hopen
      obtain ⟨⟨later, now⟩, hn⟩ := Option.ne_none_iff_exists'.mp hrun
      have hmove : (state.withLast front worker phase tree).move job (.worker front.length) =
          some (state.withLast front worker later now) :=
        State.move_withLast hopen hn
      have hlater : later.drain job worker.model now = (result, after) :=
        (WorkerPhase.drain_next hn fun hstop => by simp [hgo] at hstop).trans hdrain
      cases hresult : later.result? with
      | none =>
          obtain ⟨schedule, hrest⟩ :=
            ih _ (hleft ▸ WorkerPhase.stepsLeft_next hn) hresult hlater rfl
          exact ⟨_ :: schedule, (State.run_cons hmove schedule).trans hrest⟩
      | some result =>
          obtain rfl := WorkerPhase.eq_ending_of_next hn hopen hresult
          cases hlater
          exact ⟨[_], State.run_cons hmove []⟩

/-- A worker that came to something ends, sends it and leaves. -/
theorem State.run_ending
    {tree : FileTree}
    (state : State)
    (front : List Worker)
    (worker : Worker)
    (result : UnitResult) :
    (state.withLast front worker (.ending result) tree).run job
        [.worker front.length, .worker front.length, .worker front.length] =
      some { state with
        tree := tree
        pool := state.pool.release
        stopped := state.stopped || WorkerPhase.raises (.ending result)
        workers := front ++ [{ worker with phase := .gone result }]
        sent := state.sent ++ [(worker.index, result)] } := by
  rw [State.run_cons (State.move_last rfl rfl), State.run_cons (State.move_last rfl rfl),
    State.run_cons (State.move_last rfl rfl)]
  simp [State.run, State.withLast, WorkerPhase.poolAfter, WorkerPhase.raises,
    WorkerPhase.sends?]

/-! ## All models -/

theorem numbered_concat
    (done : List (List EmittedFile))
    (files : List EmittedFile) :
    numbered (done ++ [files]) = numbered done ++ [(done.length, .ok files)] := by
  simp [numbered, List.zipIdx_append]

/-- The only failure that was sent is what the emission fails with. -/
theorem collect_eq_error
    {e : GenerateError}
    (done : List (List EmittedFile))
    (index : Nat)
    (he : e.isCancelled = false) :
    collect (numbered done ++ [(index, .error e)]) = .error (.emit e []) := by
  have hfailures : failuresOf (numbered done ++ [(index, .error e)]) = [e] := by
    have hnumbered := failuresOf_numbered done
    simp only [failuresOf, List.filterMap_append, List.filter_append] at hnumbered ⊢
    rw [hnumbered]
    simp [he]
  simp [collect, hfailures, GenerateError.ofFailures?]

theorem isCancelled_of_emitModel
    {emitter : Emitter}
    {directory : Path}
    {tree : FileTree}
    {e : GenerateError}
    (h : emitter.emitModel directory model tree = (.error e, after)) :
    e.isCancelled = false := by
  unfold Emitter.emitModel at h
  generalize ModelFile.all = files at h
  induction files generalizing tree with
  | nil => cases h
  | cons file rest ih =>
      rw [List.mapM_cons] at h
      rcases hfile : emitter.emitFile directory model file tree with ⟨cause | emitted, made⟩
      · rw [bind_error hfile] at h
        cases h
        exact Emitter.isCancelled_of_emitFile hfile
      · rw [bind_ok hfile] at h
        rcases hrest : rest.mapM (emitter.emitFile directory model) made with ⟨cause | more, final⟩
        · rw [bind_error hrest] at h
          cases h
          exact ih hrest
        · rw [bind_ok hrest] at h
          cases h

/-- All workers are gone and have returned their permits, and the submitter is about to go on. -/
structure State.Idle (state : State) (rest : List (GoStruct × Nat))
    (sent : List (Nat × UnitResult)) : Prop where
  submitter : state.submitter = .waiting rest
  unused : state.pool.inUse = 0
  size : 0 < state.pool.size
  gone : ∀ worker ∈ state.workers, worker.isGone = true
  sent : state.sent = sent

namespace State.Idle

variable {rest : List (GoStruct × Nat)}
variable {sent : List (Nat × UnitResult)}
variable {result : UnitResult}

theorem exists_acquire
    (h : state.Idle rest sent) :
    ∃ pool, state.pool.acquire? = some pool := by
  apply Option.ne_none_iff_exists'.mp
  rw [Ne, Pool.acquire?_eq_none_iff, h.unused]
  exact Nat.ne_of_lt h.size

/-- A worker for the next model can run from the permit to its end. -/
theorem run_unit
    (h : state.Idle ((model, index) :: rest) sent)
    (hgo : state.stopped = false)
    (hunit : job.emitter.emitModel job.directory model state.tree = (result, after)) :
    ∃ schedule served,
      state.run job schedule = some served ∧ served.Idle rest (sent ++ [(index, result)]) ∧
        served.tree = after ∧ served.stopped = WorkerPhase.raises (.ending result) := by
  obtain ⟨pool, hp⟩ := h.exists_acquire
  obtain ⟨hin, hsize⟩ := Pool.acquire?_eq_some hp
  let worker : Worker := { model := model, index := index }
  let started : State := { state with pool := pool, submitter := .waiting rest }
  have henter : state.move job .submitter =
      some { state with pool := pool, submitter := .admitted model index rest } := by
    simp [State.move, State.stepSubmitter, h.submitter, hp]
  have hbegin : State.move job
      { state with pool := pool, submitter := .admitted model index rest } .submitter =
        some (started.withLast state.workers worker worker.phase state.tree) := by
    simp [State.move, State.stepSubmitter, hgo, State.withLast, started, worker]
  obtain ⟨schedule, halone⟩ : ∃ schedule,
      (started.withLast state.workers worker worker.phase state.tree).run job schedule =
        some (started.withLast state.workers worker (.ending result) after) :=
    State.run_alone hgo rfl (by rw [WorkerPhase.drain_before, Emitter.emitRest_all, hunit])
  have hserved := ((State.run_cons henter _).trans (State.run_cons hbegin _)).trans
    ((State.run_append halone).trans (State.run_ending started state.workers worker result))
  refine ⟨_, _, hserved, ⟨rfl, ?_, ?_, ?_, ?_⟩, rfl, ?_⟩
  · simp [started, hin, h.unused]
  · simpa [started, hsize] using h.size
  · simpa [or_imp, forall_and] using ⟨h.gone, rfl⟩
  · simp [started, h.sent, worker]
  · simp [started, hgo]

/-- A submitter with nothing left to submit returns what was sent. -/
theorem run_finish
    (h : state.Idle [] sent)
    (job : Job) :
    ∃ schedule final,
      state.run job schedule = some final ∧ final.tree = state.tree ∧
        final.returned? = some (collect sent) := by
  have hfinish : state.move job .submitter = some { state with submitter := .joining } := by
    simp [State.move, State.stepSubmitter, h.submitter]
  refine ⟨[.submitter, .submitter],
    { state with submitter := .returned (collect state.sent) }, ?_, rfl, ?_⟩
  · rw [State.run_cons hfinish]
    simpa [State.run, State.move, State.stepSubmitter] using h.gone
  · rw [← h.sent]
    rfl

/-- A submitter that sees a raised flag returns what was sent. -/
theorem run_giveUp
    (h : state.Idle rest sent)
    (hstop : state.stopped = true) :
    ∃ schedule final,
      state.run job schedule = some final ∧ final.tree = state.tree ∧
        final.returned? = some (collect sent) := by
  cases rest with
  | nil => exact h.run_finish job
  | cons entry rest =>
      obtain ⟨pool, hp⟩ := h.exists_acquire
      have henter : state.move job .submitter =
          some { state with pool := pool, submitter := .admitted entry.1 entry.2 rest } := by
        simp [State.move, State.stepSubmitter, h.submitter, hp]
      have hgiveUp : State.move job
          { state with pool := pool, submitter := .admitted entry.1 entry.2 rest } .submitter =
            some { state with pool := pool.release, submitter := .joining } := by
        simp [State.move, State.stepSubmitter, hstop]
      refine ⟨[.submitter, .submitter, .submitter],
        { state with pool := pool.release, submitter := .returned (collect state.sent) }, ?_,
        rfl, ?_⟩
      · rw [State.run_cons henter, State.run_cons hgiveUp]
        simpa [State.run, State.move, State.stepSubmitter] using h.gone
      · rw [← h.sent]
        rfl

/-- A submitter with an idle pool can have the models emitted one after the other. -/
theorem run_inOrder
    {models : List GoStruct}
    {done : List (List EmittedFile)}
    (h : state.Idle (models.zipIdx done.length) (numbered done))
    (hgo : state.stopped = false)
    (hmodels : job.emitter.emitInOrder job.directory models state.tree = (result, after)) :
    ∃ schedule final,
      state.run job schedule = some final ∧ final.tree = after ∧
        final.returned? =
          some ((result.mapError fun e => .emit e []).map (done.flatten ++ ·)) := by
  induction models generalizing state done result with
  | nil =>
      cases hmodels
      obtain ⟨schedule, final, hrun, htree, hreturned⟩ := h.run_finish job
      refine ⟨schedule, final, hrun, htree, ?_⟩
      rw [hreturned, collect_eq_ok (List.Perm.refl _)]
      simp [Except.map, Except.mapError]
  | cons model rest ih =>
      rw [List.zipIdx_cons] at h
      rcases hunit : job.emitter.emitModel job.directory model state.tree with ⟨e | files, made⟩
      · rw [Emitter.emitInOrder_cons_error hunit] at hmodels
        cases hmodels
        obtain ⟨first, failed, hfirst, hidle, rfl, hstop⟩ := h.run_unit hgo hunit
        obtain ⟨schedule, final, hrun, htree, hreturned⟩ := hidle.run_giveUp hstop
        refine ⟨first ++ schedule, final, (State.run_append hfirst).trans hrun, htree, ?_⟩
        rw [hreturned, collect_eq_error done _ (isCancelled_of_emitModel hunit)]
        rfl
      · rw [Emitter.emitInOrder_cons_ok hunit] at hmodels
        cases hmodels
        obtain ⟨first, served, hfirst, hidle, rfl, hstop⟩ := h.run_unit hgo hunit
        have hdone : served.Idle (rest.zipIdx (done ++ [files]).length)
            (numbered (done ++ [files])) := by
          rw [numbered_concat, List.length_append]
          exact hidle
        obtain ⟨schedule, final, hrun, htree, hreturned⟩ := ih hdone hstop rfl
        refine ⟨first ++ schedule, final, (State.run_append hfirst).trans hrun, htree, ?_⟩
        rw [hreturned]
        cases (job.emitter.emitInOrder job.directory rest served.tree).1 with
        | error e => rfl
        | ok more => simp [Except.map, Except.mapError]

end State.Idle

/-- An emission can return what emitting its models one after the other gives. -/
theorem returns_emit
    (job : Job)
    (tree : FileTree) :
    Returns job tree (job.emitter.emit job.directory job.models tree).1
      (job.emitter.emit job.directory job.models tree).2 := by
  rcases hmodels : job.emitter.emitInOrder job.directory job.models tree with ⟨result, after⟩
  have hstart : (State.start job tree).Idle
      (job.models.zipIdx ([] : List (List EmittedFile)).length) (numbered []) :=
    ⟨rfl, rfl, Nat.lt_of_lt_of_le Nat.one_pos (Nat.le_max_left _ _), by simp [State.start], rfl⟩
  obtain ⟨schedule, final, hrun, htree, hreturned⟩ := hstart.run_inOrder rfl hmodels
  rw [Emitter.emit_eq hmodels]
  refine ⟨final, Reaches.run .start hrun, ?_, htree⟩
  rw [hreturned]
  cases result <;> rfl

end Emission
end GormForge
