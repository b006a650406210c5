import GormForge.Emission.Emitter
import GormForge.Emission.Pool

/-!
# Schedules of an emission

An emission with workers that run at the same time, one for each model.

**Input.**  A schedule is a list of moves, each of which lets the submitter or one of the
workers take its next step.

**Algorithm.**  The submitter takes a permit for each model, looks at the stop flag and
starts a worker, or stops submitting at a raised flag.  Before each of its two files a worker
looks at the flag; rendering and writing are steps of their own.  At its end it raises the
flag if it failed, then sends its result, and only then returns its permit.  The submitter
waits until all workers are gone and then collects what they sent.

**Results.**  `run` is the state after a schedule, and `returned?` what the emission came to:
the failures in the order in which they were sent, or the files in the order of their models.
-/

namespace GormForge
namespace Emission

/-- What a model comes to. -/
abbrev UnitResult := Except GenerateError (List EmittedFile)

/-- What is emitted, and with what. -/
structure Job where
  emitter : Emitter
  directory : Path
  /-- The number of workers that may run at the same time. -/
  workers : Nat
  models : List GoStruct

/-! ## Workers -/

/-- Where a worker stands. -/
inductive WorkerPhase where
  /-- About to look at the stop flag before a file. -/
  | asking (file : ModelFile) (rest : List ModelFile) (emitted : List EmittedFile)
  /-- About to render a file. -/
  | rendering (file : ModelFile) (rest : List ModelFile) (emitted : List EmittedFile)
  /-- About to write what was prepared for a file. -/
  | writing (file : ModelFile) (prepared : Option String) (rest : List ModelFile)
      (emitted : List EmittedFile)
  /-- About to raise the stop flag if it failed. -/
  | ending (result : UnitResult)
  /-- About to send its result. -/
  | sending (result : UnitResult)
  /-- About to return its permit. -/
  | leaving (result : UnitResult)
  | gone (result : UnitResult)

namespace WorkerPhase

/-- Where a worker stands before the files that are left. -/
def before (emitted : List EmittedFile) : List ModelFile → WorkerPhase
  | [] => ending (.ok emitted)
  | file :: rest => asking file rest emitted

/-- What the worker came to, once it came to something. -/
def result? : WorkerPhase → Option UnitResult
  | ending result | sending result | leaving result | gone result => some result
  | _ => none

/-- What the worker has sent. -/
def sent? : WorkerPhase → Option UnitResult
  | leaving result | gone result => some result
  | _ => none

/-- Whether the worker is gone. -/
def isGone : WorkerPhase → Bool
  | gone _ => true
  | _ => false

/-! ### Steps -/

/-- The phase after the next step and the tree that the step leaves; none once the worker
is gone. -/
def next (job : Job) (model : GoStruct) (stopped : Bool) (tree : FileTree) :
    WorkerPhase → Option (WorkerPhase × FileTree)
  | asking file rest emitted =>
      some (if stopped then ending (.error .cancelled) else rendering file rest emitted, tree)
  | rendering file rest emitted =>
    match job.emitter.prepareFile job.directory model file tree with
    | .error e => some (ending (.error e), tree)
    | .ok prepared => some (writing file prepared rest emitted, tree)
  | writing file prepared rest emitted =>
    match Emitter.storeFile job.directory model file prepared tree with
    | (.error e, after) => some (ending (.error e), after)
    | (.ok stored, after) => some (before (emitted ++ [stored]) rest, after)
  | ending result => some (sending result, tree)
  | sending result => some (leaving result, tree)
  | leaving result => some (gone result, tree)
  | gone _ => none

/-- Whether the next step raises the stop flag. -/
def raises : WorkerPhase → Bool
  | ending (.error _) => true
  | _ => false

/-- What the next step sends. -/
def sends? : WorkerPhase → Option UnitResult
  | sending result => some result
  | _ => none

/-- The pool after the next step. -/
def poolAfter (pool : Pool) : WorkerPhase → Pool
  | leaving _ => pool.release
  | _ => pool

end WorkerPhase

/-- A worker with its model and the place of the model among all. -/
structure Worker where
  model : GoStruct
  index : Nat
  phase : WorkerPhase := .before [] ModelFile.all

namespace Worker

/-- The model of a worker with its place. -/
def entry (worker : Worker) : GoStruct × Nat :=
  (worker.model, worker.index)

/-- Whether a worker is gone. -/
def isGone (worker : Worker) : Bool :=
  worker.phase.isGone

/-- The failure of a worker, unless it only stopped because of another one. -/
def failure? (worker : Worker) : Option GenerateError :=
  match worker.phase.result? with
  | some (.error e) => if e.isCancelled then none else some e
  | _ => none

end Worker

/-! ## States -/

/-- Where the submitter stands. -/
inductive SubmitterPhase where
  /-- About to take a permit for the first of these models. -/
  | waiting (rest : List (GoStruct × Nat))
  /-- With a permit, about to look at the stop flag. -/
  | admitted (model : GoStruct) (index : Nat) (rest : List (GoStruct × Nat))
  /-- About to wait for all workers and to collect what they sent. -/
  | joining
  | returned (result : UnitResult)

/-- A state of an emission. -/
structure State where
  tree : FileTree
  pool : Pool
  /-- Whether the stop flag is raised. -/
  stopped : Bool := false
  submitter : SubmitterPhase
  workers : List Worker := []
  /-- The results in the order in which they were sent. -/
  sent : List (Nat × UnitResult) := []

/-- A move of a schedule. -/
inductive Move where
  | submitter
  /-- The next step of the worker that was started at this place. -/
  | worker (place : Nat)
  deriving Repr, DecidableEq

/-- The failures that were sent, other than those that only say that a worker stopped. -/
def failuresOf (sent : List (Nat × UnitResult)) : List GenerateError :=
  (sent.filterMap fun entry =>
    match entry.2 with
    | .ok _ => none
    | .error e => some e).filter fun e => !e.isCancelled

/-- The files that were sent, in the order of their models. -/
def filesOf (sent : List (Nat × UnitResult)) : List EmittedFile :=
  (sent.mergeSort fun a b => a.1 ≤ b.1).flatMap fun entry =>
    match entry.2 with
    | .ok files => files
    | .error _ => []

/-- What the results that were sent come to. -/
def collect (sent : List (Nat × UnitResult)) : UnitResult :=
  match GenerateError.ofFailures? (failuresOf sent) with
  | some e => .error e
  | none => .ok (filesOf sent)

namespace State

/-- What the emission came to, once it is over. -/
def returned? (state : State) : Option UnitResult :=
  match state.submitter with
  | .returned result => some result
  | _ => none

/-! ### Steps -/

/-- The state after a step of the worker at a place. -/
def afterStep (state : State) (place : Nat) (worker : Worker) (phase : WorkerPhase)
    (tree : FileTree) : State where
  tree := tree
  pool := worker.phase.poolAfter state.pool
  stopped := state.stopped || worker.phase.raises
  submitter := state.submitter
  workers := state.workers.set place { worker with phase := phase }
  sent := state.sent ++ (worker.phase.sends?.map fun result => (worker.index, result)).toList

/-- The next step of the worker at a place. -/
def stepWorker (job : Job) (state : State) (place : Nat) (worker : Worker) : Option State :=
  (worker.phase.next job worker.model state.stopped state.tree).map fun after =>
    state.afterStep place worker after.1 after.2

/-- The next step of the submitter; none while it has to wait and once it has returned. -/
def stepSubmitter (state : State) : Option State :=
  match state.submitter with
  | .waiting [] => some { state with submitter := .joining }
  | .waiting ((model, index) :: rest) =>
      state.pool.acquire?.map fun pool =>
        { state with pool := pool, submitter := .admitted model index rest }
  | .admitted model index rest =>
    if state.stopped then
      some { state with pool := state.pool.release, submitter := .joining }
    else
      some { state with
        submitter := .waiting rest
        workers := state.workers ++ [{ model := model, index := index }] }
  | .joining =>
    if state.workers.all Worker.isGone then
      some { state with submitter := .returned (collect state.sent) }
    else
      none
  | .returned _ => none

/-- The state after a move, if the move is possible. -/
def move (job : Job) (state : State) : Move → Option State
  | .submitter => state.stepSubmitter
  | .worker place => state.workers[place]?.bind (state.stepWorker job place)

/-- The state after a schedule, if all of its moves are possible. -/
def run (job : Job) (state : State) (schedule : List Move) : Option State :=
  schedule.foldlM (move job) state

/-- The state before an emission. -/
def start (job : Job) (tree : FileTree) : State where
  tree := tree
  pool := Pool.ofSize job.workers
  submitter := .waiting job.models.zipIdx

end State

/-! ## Emissions -/

/-- The states to which schedules lead from a tree. -/
inductive Reaches (job : Job) (tree : FileTree) : State → Prop
  | start : Reaches job tree (State.start job tree)
  | move {state after : State} (move : Move) :
      Reaches job tree state →
      state.move job move = some after →
      Reaches job tree after

/-- Some schedule of a job ends with a result and leaves a tree. -/
def Returns (job : Job) (tree : FileTree) (result : UnitResult) (after : FileTree) : Prop :=
  ∃ state, Reaches job tree state ∧ state.returned? = some result ∧ state.tree = after

end Emission
end GormForge
