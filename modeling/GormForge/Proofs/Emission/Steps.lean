import GormForge.Emission.Schedule
import Mathlib.Algebra.GroupWithZero.Nat
import Mathlib.Data.List.Basic
import Mathlib.Tactic.Common

/-!
# Steps of an emission

What one move of a schedule can do, and the end of every schedule.

**Results.**
* `WorkerPhase.step_of_next`: what a worker does next is one of nine kinds of steps, and each says
  what it found and what it leaves.
* `State.step_of_move`: a move is one of six kinds of steps, and each says all that changes.
* `Step.forall_workers`: what a worker's own steps keep, all steps keep.
* `Reaches.exists_move`: as long as the emission has not returned, somebody can move.
* `State.run_length_le`: a schedule makes at most eleven moves for each model and two more.
* `Reaches.exists_run_returned`: every schedule can be continued until the emission returns.
-/

namespace GormForge
namespace Emission

universe u v

/-! ## Changing one element of a list -/

section Lists

variable {α : Type u}
variable {β : Type v}

theorem exists_split_of_getElem?
    {xs : List α}
    {place : Nat}
    {x : α}
    (h : xs[place]? = some x) :
    ∃ front back,
      xs = front ++ x :: back ∧
        ∀ y, xs.set place y = front ++ y :: back := by
  obtain ⟨hlt, rfl⟩ := List.getElem?_eq_some_iff.mp h
  refine ⟨xs.take place, xs.drop (place + 1), ?_, fun y => ?_⟩
  · rw [List.getElem_cons_drop, List.take_append_drop]
  · rw [List.set_eq_take_append_cons_drop, if_pos hlt]

theorem mem_middle_iff
    {front back : List α}
    {x y : α} :
    y ∈ front ++ x :: back ↔ y = x ∨ y ∈ front ++ back := by
  simp [or_left_comm]

theorem forall_mem_middle_iff
    {front back : List α}
    {x : α}
    {P : α → Prop} :
    (∀ y ∈ front ++ x :: back, P y) ↔ P x ∧ ∀ y ∈ front ++ back, P y := by
  simp only [mem_middle_iff, or_imp, forall_and, forall_eq]

end Lists

/-! ## Steps of a worker -/

/-- The steps that a worker can take from a tree: the phase before, the phase after and the tree
that the step leaves. -/
inductive WorkerStep (job : Job) (model : GoStruct) (stopped : Bool) (tree : FileTree) :
    WorkerPhase → WorkerPhase → FileTree → Prop
  | giveUp
      {file : ModelFile} {rest : List ModelFile} {emitted : List EmittedFile}
      (hstop : stopped = true) :
      WorkerStep job model stopped tree
        (.asking file rest emitted) (.ending (.error .cancelled)) tree
  | goOn
      {file : ModelFile} {rest : List ModelFile} {emitted : List EmittedFile}
      (hgo : stopped = false) :
      WorkerStep job model stopped tree
        (.asking file rest emitted) (.rendering file rest emitted) tree
  | refuse
      {file : ModelFile} {rest : List ModelFile} {emitted : List EmittedFile}
      {cause : GenerateError}
      (hprepare : job.emitter.prepareFile job.directory model file tree = .error cause) :
      WorkerStep job model stopped tree
        (.rendering file rest emitted) (.ending (.error cause)) tree
  | prepare
      {file : ModelFile} {rest : List ModelFile} {emitted : List EmittedFile}
      {prepared : Option String}
      (hprepare : job.emitter.prepareFile job.directory model file tree = .ok prepared) :
      WorkerStep job model stopped tree
        (.rendering file rest emitted) (.writing file prepared rest emitted) tree
  | spoil
      {file : ModelFile} {prepared : Option String} {rest : List ModelFile}
      {emitted : List EmittedFile} {cause : GenerateError} {after : FileTree}
      (hstore : Emitter.storeFile job.directory model file prepared tree = (.error cause, after)) :
      WorkerStep job model stopped tree
        (.writing file prepared rest emitted) (.ending (.error cause)) after
  | store
      {file : ModelFile} {prepared : Option String} {rest : List ModelFile}
      {emitted : List EmittedFile} {stored : EmittedFile} {after : FileTree}
      (hstore : Emitter.storeFile job.directory model file prepared tree = (.ok stored, after)) :
      WorkerStep job model stopped tree
        (.writing file prepared rest emitted) (.before (emitted ++ [stored]) rest) after
  | settle {result : UnitResult} :
      WorkerStep job model stopped tree (.ending result) (.sending result) tree
  | send {result : UnitResult} :
      WorkerStep job model stopped tree (.sending result) (.leaving result) tree
  | leave {result : UnitResult} :
      WorkerStep job model stopped tree (.leaving result) (.gone result) tree

namespace WorkerPhase

variable {job : Job}
variable {model : GoStruct}
variable {stopped : Bool}
variable {tree after : FileTree}
variable {phase later : WorkerPhase}
variable {result : UnitResult}

/-- A worker can take a step until it is gone. -/
theorem next_eq_none_iff :
    phase.next job model stopped tree = none ↔ phase.isGone = true := by
  cases phase with
  | rendering file rest emitted =>
      cases h : job.emitter.prepareFile job.directory model file tree <;>
        simp [next, isGone, h]
  | writing file prepared rest emitted =>
      rcases h : Emitter.storeFile job.directory model file prepared tree with ⟨_ | _, _⟩ <;>
        simp [next, isGone, h]
  | _ => simp [next, isGone]

/-- What comes next is a step of the worker. -/
theorem step_of_next
    (hn : phase.next job model stopped tree = some (later, after)) :
    WorkerStep job model stopped tree phase later after := by
  cases phase with
  | asking file rest emitted =>
      simp only [next, Option.some.injEq, Prod.mk.injEq] at hn
      obtain ⟨rfl, rfl⟩ := hn
      cases stopped with
      | true => exact .giveUp rfl
      | false => exact .goOn rfl
  | rendering file rest emitted =>
      simp only [next] at hn
      split at hn
      case h_1 hprepare =>
          cases hn
          exact .refuse hprepare
      case h_2 hprepare =>
          cases hn
          exact .prepare hprepare
  | writing file prepared rest emitted =>
      simp only [next] at hn
      split at hn
      case h_1 hstore =>
          cases hn
          exact .spoil hstore
      case h_2 hstore =>
          cases hn
          exact .store hstore
  | ending result =>
      cases hn
      exact .settle
  | sending result =>
      cases hn
      exact .send
  | leaving result =>
      cases hn
      exact .leave
  | gone result => cases hn

/-- The only steps that change the tree are those that write a file. -/
theorem next_tree
    (hn : phase.next job model stopped tree = some (later, after)) :
    after = tree ∨
      ∃ file prepared rest emitted,
        phase = writing file prepared rest emitted ∧
          after = (Emitter.storeFile job.directory model file prepared tree).2 := by
  cases step_of_next hn with
  | giveUp | goOn | refuse | prepare | settle | send | leave => exact Or.inl rfl
  | spoil hstore | store hstore => exact Or.inr ⟨_, _, _, _, rfl, by rw [hstore]⟩

/-- What a worker came to stays, and from then on it leaves the tree alone. -/
theorem result?_next
    (hn : phase.next job model stopped tree = some (later, after))
    (hr : phase.result? = some result) :
    later.result? = some result ∧ after = tree := by
  cases step_of_next hn with
  | giveUp | goOn | refuse | prepare | spoil | store => cases hr
  | settle | send | leave => exact ⟨hr, rfl⟩

/-- A worker before its next file has not failed. -/
theorem result?_before_ne_error
    (emitted : List EmittedFile)
    (files : List ModelFile)
    (e : GenerateError) :
    (before emitted files).result? ≠ some (.error e) := by
  cases files <;> simp [before, result?]

@[simp] theorem sent?_before
    (emitted : List EmittedFile)
    (files : List ModelFile) :
    (before emitted files).sent? = none := by
  cases files <;> rfl

@[simp] theorem isGone_before
    (emitted : List EmittedFile)
    (files : List ModelFile) :
    (before emitted files).isGone = false := by
  cases files <;> rfl

/-- A step sends exactly what the worker has sent after it and not before. -/
theorem sent?_next
    (hn : phase.next job model stopped tree = some (later, after)) :
    later.sent? = phase.sent?.or phase.sends? := by
  cases step_of_next hn with
  | store => exact sent?_before _ _
  | giveUp | goOn | refuse | prepare | spoil | settle | send | leave => rfl

/-- Only a worker that failed raises the stop flag. -/
theorem exists_error_of_raises
    (h : phase.raises = true) :
    ∃ e, phase = ending (.error e) := by
  unfold raises at h
  split at h
  · exact ⟨_, rfl⟩
  · cases h

/-- Whoever takes a step is not gone. -/
theorem isGone_next
    (hn : phase.next job model stopped tree = some (later, after)) :
    phase.isGone = false := by
  cases step_of_next hn with
  | giveUp | goOn | refuse | prepare | spoil | store | settle | send | leave => rfl

/-- A step is the return of a permit, or the worker stays and leaves the pool alone. -/
theorem leaves_or_stays
    (hn : phase.next job model stopped tree = some (later, after))
    (pool : Pool) :
    (∃ result, phase = leaving result ∧ later = gone result) ∨
      (later.isGone = phase.isGone ∧ poolAfter pool phase = pool) := by
  cases step_of_next hn with
  | leave => exact Or.inl ⟨_, rfl, rfl⟩
  | store => exact Or.inr ⟨isGone_before _ _, rfl⟩
  | giveUp | goOn | refuse | prepare | spoil | settle | send => exact Or.inr ⟨rfl, rfl⟩

theorem isGone_iff :
    phase.isGone = true ↔ ∃ result, phase = gone result := by
  cases phase <;> simp [isGone]

/-- The number of steps that a worker has left at most. -/
def stepsLeft : WorkerPhase → Nat
  | asking _ rest _ => 3 * rest.length + 6
  | rendering _ rest _ => 3 * rest.length + 5
  | writing _ _ rest _ => 3 * rest.length + 4
  | ending _ => 3
  | sending _ => 2
  | leaving _ => 1
  | gone _ => 0

@[simp] theorem stepsLeft_before
    (emitted : List EmittedFile)
    (files : List ModelFile) :
    (before emitted files).stepsLeft = 3 * files.length + 3 := by
  cases files with
  | nil => rfl
  | cons file rest => simp [before, stepsLeft]; omega

theorem stepsLeft_next
    (hn : phase.next job model stopped tree = some (later, after)) :
    later.stepsLeft < phase.stepsLeft := by
  cases step_of_next hn with
  | store =>
      rw [stepsLeft_before]
      simp [stepsLeft]
  | giveUp | goOn | refuse | prepare | spoil | settle | send | leave => simp [stepsLeft]

end WorkerPhase

/-! ## Steps of a state -/

/-- The steps that an emission can take from a state. -/
inductive Step (job : Job) (state : State) : State → Prop
  | finish
      (hs : state.submitter = .waiting []) :
      Step job state { state with submitter := .joining }
  | enter
      {model : GoStruct} {index : Nat} {rest : List (GoStruct × Nat)} {pool : Pool}
      (hs : state.submitter = .waiting ((model, index) :: rest))
      (hp : state.pool.acquire? = some pool) :
      Step job state { state with pool := pool, submitter := .admitted model index rest }
  | giveUp
      {model : GoStruct} {index : Nat} {rest : List (GoStruct × Nat)}
      (hs : state.submitter = .admitted model index rest)
      (hstop : state.stopped = true) :
      Step job state { state with pool := state.pool.release, submitter := .joining }
  | begin
      {model : GoStruct} {index : Nat} {rest : List (GoStruct × Nat)}
      (hs : state.submitter = .admitted model index rest)
      (hgo : state.stopped = false) :
      Step job state { state with
        submitter := .waiting rest
        workers := state.workers ++ [{ model := model, index := index }] }
  | join
      (hs : state.submitter = .joining)
      (hgone : ∀ worker ∈ state.workers, worker.isGone = true) :
      Step job state { state with submitter := .returned (collect state.sent) }
  | work
      {front back : List Worker} {worker : Worker} {later : WorkerPhase} {after : FileTree}
      (hw : state.workers = front ++ worker :: back)
      (hn : worker.phase.next job worker.model state.stopped state.tree = some (later, after)) :
      Step job state { state with
        tree := after
        pool := worker.phase.poolAfter state.pool
        stopped := state.stopped || worker.phase.raises
        workers := front ++ { worker with phase := later } :: back
        sent := state.sent ++
          (worker.phase.sends?.map fun result => (worker.index, result)).toList }

/-- A raised flag stays raised. -/
theorem Step.stopped_mono
    {job : Job}
    {state after : State}
    (h : Step job state after)
    (hstop : state.stopped = true) :
    after.stopped = true := by
  cases h with
  | finish | enter | giveUp | begin | join => exact hstop
  | work => simp [hstop]

/-- A raised flag was raised before, or some worker raises it. -/
theorem Step.stopped_cases
    {job : Job}
    {state after : State}
    (h : Step job state after)
    (hstop : after.stopped = true) :
    state.stopped = true ∨ ∃ worker ∈ state.workers, worker.phase.raises = true := by
  cases h with
  | finish | enter | giveUp | begin | join => exact Or.inl hstop
  | work hw hn =>
      exact (Bool.or_eq_true_iff.mp hstop).imp_right fun hraise => ⟨_, by simp [hw], hraise⟩

/-- What holds of the workers of a state, of a worker that has just started and of one that has
taken its step holds of the workers after a step. -/
theorem Step.forall_workers
    {job : Job}
    {state after : State}
    {P : Worker → Prop}
    (h : Step job state after)
    (hold : ∀ worker ∈ state.workers, P worker)
    (hbegin : ∀ model index, P { model := model, index := index })
    (hnext : ∀ worker ∈ state.workers, ∀ later,
      worker.phase.next job worker.model state.stopped state.tree = some (later, after.tree) →
        after.stopped = (state.stopped || worker.phase.raises) →
          P { worker with phase := later }) :
    ∀ worker ∈ after.workers, P worker := by
  cases h with
  | finish | enter | giveUp | join => exact hold
  | @begin model index rest hs hgo =>
      intro worker hw
      rcases List.mem_append.mp hw with hw | hw
      · exact hold worker hw
      · rw [List.mem_singleton.mp hw]
        exact hbegin model index
  | @work front back worker later after hw hn =>
      have hmoved := hnext worker (by simp [hw]) later hn rfl
      rw [hw] at hold
      exact forall_mem_middle_iff.mpr ⟨hmoved, (forall_mem_middle_iff.mp hold).2⟩

/-- What holds of some worker, and of it when it has taken its step, holds of some worker after a
step. -/
theorem Step.exists_worker
    {job : Job}
    {state after : State}
    {P : Worker → Prop}
    (h : Step job state after)
    {worker : Worker}
    (hin : worker ∈ state.workers)
    (hold : P worker)
    (hnext : ∀ later,
      worker.phase.next job worker.model state.stopped state.tree = some (later, after.tree) →
        P { worker with phase := later }) :
    ∃ worker ∈ after.workers, P worker := by
  cases h with
  | finish | enter | giveUp | join => exact ⟨worker, hin, hold⟩
  | begin => exact ⟨worker, List.mem_append_left _ hin, hold⟩
  | @work front back moved later after hw hn =>
      rw [hw] at hin
      rcases mem_middle_iff.mp hin with rfl | hother
      · exact ⟨_, mem_middle_iff.mpr (Or.inl rfl), hnext later hn⟩
      · exact ⟨worker, mem_middle_iff.mpr (Or.inr hother), hold⟩

namespace State

variable {job : Job}
variable {state after : State}

/-- Every move is a step. -/
theorem step_of_move
    {move : Move}
    (h : state.move job move = some after) :
    Step job state after := by
  cases move with
  | submitter =>
      simp only [State.move, stepSubmitter] at h
      split at h
      case h_1 hs =>
          cases h
          exact .finish hs
      case h_2 hs =>
          obtain ⟨pool, hp, rfl⟩ := Option.map_eq_some_iff.mp h
          exact .enter hs hp
      case h_3 hs =>
          split at h
          case isTrue hstop =>
              cases h
              exact .giveUp hs hstop
          case isFalse hgo =>
              cases h
              exact .begin hs (by simpa using hgo)
      case h_4 hs =>
          split at h
          case isTrue hgone =>
              cases h
              exact .join hs (List.all_eq_true.mp hgone)
          case isFalse => cases h
      case h_5 => cases h
  | worker place =>
      obtain ⟨worker, hw, h⟩ := Option.bind_eq_some_iff.mp h
      obtain ⟨⟨later, tree⟩, hn, rfl⟩ := Option.map_eq_some_iff.mp h
      obtain ⟨front, back, hsplit, hset⟩ := exists_split_of_getElem? hw
      have hwork := Step.work hsplit hn
      rw [← hset] at hwork
      exact hwork

/-- A worker that is not gone can move. -/
theorem exists_move_of_work
    {worker : Worker}
    (hw : worker ∈ state.workers)
    (hgone : worker.isGone = false) :
    ∃ move, (state.move job move).isSome = true := by
  obtain ⟨place, hplace⟩ := List.getElem?_of_mem hw
  have hn : worker.phase.next job worker.model state.stopped state.tree ≠ none := by
    rw [Ne, WorkerPhase.next_eq_none_iff]
    simpa [Worker.isGone] using hgone
  obtain ⟨later, hlater⟩ := Option.ne_none_iff_exists'.mp hn
  exact ⟨.worker place, by simp [State.move, hplace, stepWorker, hlater]⟩

end State

/-! ## Permits -/

/-- The number of workers that hold a permit. -/
def State.active (state : State) : Nat :=
  state.workers.countP fun worker => !worker.isGone

/-- The number of permits that the submitter holds. -/
def SubmitterPhase.permits : SubmitterPhase → Nat
  | admitted _ _ _ => 1
  | _ => 0

variable {job : Job}
variable {tree : FileTree}
variable {state : State}

/-- The permits that are out are those of the workers that run and of the submitter. -/
theorem Reaches.permits
    (h : Reaches job tree state) :
    state.pool.size = max 1 job.workers ∧
      state.pool.inUse = state.active + state.submitter.permits := by
  induction h with
  | start => exact ⟨rfl, rfl⟩
  | @move state _ _ _ hmove ih =>
      obtain ⟨hsize, huse⟩ := ih
      cases State.step_of_move hmove with
      | finish hs =>
          rw [hs] at huse
          exact ⟨hsize, huse⟩
      | enter hs hp =>
          obtain ⟨hin, hsz⟩ := Pool.acquire?_eq_some hp
          rw [hs] at huse
          exact ⟨hsz.trans hsize, hin.trans (congrArg (· + 1) huse)⟩
      | giveUp hs =>
          rw [hs] at huse
          refine ⟨hsize, ?_⟩
          simp only [Pool.inUse_release, huse, State.active, SubmitterPhase.permits]
          omega
      | begin hs =>
          rw [hs] at huse
          refine ⟨hsize, huse.trans ?_⟩
          simp [State.active, SubmitterPhase.permits, Worker.isGone, WorkerPhase.before,
            ModelFile.all, WorkerPhase.isGone]
      | join hs =>
          rw [hs] at huse
          exact ⟨hsize, huse⟩
      | @work front back worker later after hw hn =>
          have hrun := WorkerPhase.isGone_next hn
          simp only [State.active, hw, List.countP_append, List.countP_cons, Worker.isGone,
            hrun] at huse ⊢
          rcases WorkerPhase.leaves_or_stays hn state.pool with
            ⟨result, hleave, rfl⟩ | ⟨hstay, hpool⟩
          · simp only [hleave, WorkerPhase.poolAfter, Pool.size_release, Pool.inUse_release]
            refine ⟨hsize, ?_⟩
            simp [WorkerPhase.isGone] at huse ⊢
            omega
          · simp only [hpool, hstay, hrun]
            exact ⟨hsize, huse⟩

/-! ## The end of every schedule -/

/-- As long as the emission has not returned, somebody can move. -/
theorem Reaches.exists_move
    (h : Reaches job tree state)
    (hopen : state.returned? = none) :
    ∃ move, (state.move job move).isSome = true := by
  obtain ⟨hsize, huse⟩ := h.permits
  cases hs : state.submitter with
  | waiting rest =>
      cases rest with
      | nil => exact ⟨.submitter, by simp [State.move, State.stepSubmitter, hs]⟩
      | cons entry rest =>
          cases hp : state.pool.acquire? with
          | some pool =>
              exact ⟨.submitter, by simp [State.move, State.stepSubmitter, hs, hp]⟩
          | none =>
              -- all permits are with workers, and there is at least one
              have hfull := Pool.acquire?_eq_none_iff.mp hp
              rw [hs] at huse
              have hactive : 0 < state.active := by
                simp only [SubmitterPhase.permits] at huse
                omega
              obtain ⟨worker, hw, hrun⟩ := List.countP_pos_iff.mp hactive
              exact State.exists_move_of_work hw (by simpa using hrun)
  | admitted model index rest =>
      by_cases hstop : state.stopped
      · exact ⟨.submitter, by simp [State.move, State.stepSubmitter, hs, hstop]⟩
      · exact ⟨.submitter, by simp [State.move, State.stepSubmitter, hs, hstop]⟩
  | joining =>
      by_cases hgone : state.workers.all Worker.isGone
      · exact ⟨.submitter, by simp [State.move, State.stepSubmitter, hs, hgone]⟩
      · obtain ⟨worker, hw, hrun⟩ : ∃ worker ∈ state.workers, worker.isGone = false := by
          simpa using hgone
        exact State.exists_move_of_work hw hrun
  | returned result => simp [State.returned?, hs] at hopen

/-- The number of steps that the submitter has left at most, with those of the workers that it
has yet to start. -/
def SubmitterPhase.stepsLeft : SubmitterPhase → Nat
  | waiting rest => 11 * rest.length + 2
  | admitted _ _ rest => 11 * rest.length + 12
  | joining => 1
  | returned _ => 0

/-- The number of moves that are left at most. -/
def State.movesLeft (state : State) : Nat :=
  state.submitter.stepsLeft + (state.workers.map fun worker => worker.phase.stepsLeft).sum

theorem State.movesLeft_move
    {after : State}
    {move : Move}
    (h : state.move job move = some after) :
    after.movesLeft < state.movesLeft := by
  unfold State.movesLeft
  cases State.step_of_move h with
  | finish hs => simp [hs, SubmitterPhase.stepsLeft]
  | enter hs hp =>
      simp [hs, SubmitterPhase.stepsLeft]
      omega
  | giveUp hs => simp [hs, SubmitterPhase.stepsLeft]
  | begin hs =>
      simp [hs, SubmitterPhase.stepsLeft, ModelFile.all]
      omega
  | join hs => simp [hs, SubmitterPhase.stepsLeft]
  | work hw hn =>
      have hless := WorkerPhase.stepsLeft_next hn
      simp [hw]
      omega

theorem State.run_cons_eq_some_iff
    {move : Move}
    {schedule : List Move}
    {after : State} :
    state.run job (move :: schedule) = some after ↔
      ∃ middle, state.move job move = some middle ∧ middle.run job schedule = some after := by
  simp only [State.run, List.foldlM_cons, Option.bind_eq_bind, Option.bind_eq_some_iff]

/-- A schedule makes at most eleven moves for each model and two more. -/
theorem State.run_length_le
    {schedule : List Move}
    {after : State}
    (h : state.run job schedule = some after) :
    schedule.length + after.movesLeft ≤ state.movesLeft := by
  induction schedule generalizing state with
  | nil =>
      cases h
      simp
  | cons move rest ih =>
      obtain ⟨middle, hmove, hrest⟩ := State.run_cons_eq_some_iff.mp h
      have hless := State.movesLeft_move hmove
      have hle := ih hrest
      simp only [List.length_cons]
      omega

theorem State.run_append
    {first second : List Move}
    {middle : State}
    (h : state.run job first = some middle) :
    state.run job (first ++ second) = middle.run job second := by
  simp only [State.run] at h ⊢
  rw [List.foldlM_append, h]
  rfl

theorem Reaches.run
    {schedule : List Move}
    {after : State}
    (h : Reaches job tree state)
    (hrun : state.run job schedule = some after) :
    Reaches job tree after := by
  induction schedule generalizing state with
  | nil =>
      cases hrun
      exact h
  | cons move rest ih =>
      obtain ⟨middle, hmove, hrest⟩ := State.run_cons_eq_some_iff.mp hrun
      exact ih (h.move move hmove) hrest

/-- A state is reached exactly if some schedule leads to it. -/
theorem reaches_iff_exists_run :
    Reaches job tree state ↔
      ∃ schedule, (State.start job tree).run job schedule = some state := by
  constructor
  · intro h
    induction h with
    | start => exact ⟨[], rfl⟩
    | @move state after move _ hmove ih =>
        obtain ⟨schedule, hrun⟩ := ih
        refine ⟨schedule ++ [move], ?_⟩
        rw [State.run_append hrun]
        simp [State.run, hmove]
  · rintro ⟨schedule, hrun⟩
    exact Reaches.start.run hrun

/-- Every schedule can be continued until the emission returns. -/
theorem Reaches.exists_run_returned
    (h : Reaches job tree state) :
    ∃ schedule after,
      state.run job schedule = some after ∧ after.returned?.isSome = true := by
  induction hleft : state.movesLeft using Nat.strongRecOn generalizing state with
  | ind left ih =>
      cases hret : state.returned? with
      | some result => exact ⟨[], state, rfl, by simp [hret]⟩
      | none =>
          obtain ⟨move, hmove⟩ := h.exists_move hret
          obtain ⟨middle, hmiddle⟩ := Option.isSome_iff_exists.mp hmove
          have hless := State.movesLeft_move hmiddle
          obtain ⟨schedule, after, hrun, hdone⟩ :=
            ih _ (hleft ▸ hless) (h.move move hmiddle) rfl
          exact ⟨move :: schedule, after, by simpa [State.run, hmiddle] using hrun, hdone⟩

end Emission
end GormForge
