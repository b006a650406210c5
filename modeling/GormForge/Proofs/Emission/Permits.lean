import GormForge.Emission.Holders
import GormForge.Proofs.Emission.Accounting

/-!
# Permits

Threads that share a pool, and an emission as a case of them.

**Algorithm.**  A pool knows the number of permits that are out and nothing of who has them, since
threads pass them on before they are returned.  So the invariant adds up the permits of all
threads: every event changes that sum and the number in the pool alike.

**Results.**
* `Pool.Shared.step_eq_some_iff`: what an event does, for each thing a thread can be at.
* `Pool.Shared.counted_run`: a pool counts the permits that are held.
* `Emission.Reaches.exists_run_shared`: an emission uses its pool as threads can.
* `Pool.Shared.run_counts`: permits are held within the size of the pool, and whoever waits for
  an idle pool goes on only when no permit is held.
-/

namespace GormForge
namespace Pool

/-- The thread that an event is a step of. -/
def Event.actor : Event → Nat
  | ask place | awaitIdle place | look place | wake place | giveBack place | pass place _ => place

/-- Whether a thread waits until all permits are free. -/
def Activity.awaitsIdle : Activity → Bool
  | wantsIdle | sleepsForIdle => true
  | _ => false

namespace Shared

variable {state after : Shared}
variable {event : Event}
variable {place : Nat}
variable {holder : Holder}

/-! ## Permits that are held -/

theorem holders_withHolder
    (state : Shared)
    (place : Nat)
    (holder : Holder) :
    (state.withHolder place holder).holders = state.holders.set place holder := by
  rfl

theorem getElem?_withHolder_self
    (h : state.holders[place]? = some holder)
    (changed : Holder) :
    (state.withHolder place changed).holders[place]? = some changed := by
  rw [holders_withHolder, List.getElem?_set_self (List.getElem?_eq_some_iff.mp h).1]

theorem getElem?_withHolder_ne
    {other : Nat}
    (hne : other ≠ place)
    (changed : Holder) :
    (state.withHolder other changed).holders[place]? = state.holders[place]? := by
  rw [holders_withHolder, List.getElem?_set_ne hne]

theorem held_eq_sum
    (state : Shared) :
    state.held = (state.holders.map Holder.permits).sum := by
  unfold held
  induction state.holders with
  | nil => rfl
  | cons holder rest ih => simp [ih]

/-- A change of one thread changes what is held by the permits of that thread. -/
theorem held_withHolder
    (h : state.holders[place]? = some holder)
    (changed : Holder) :
    (state.withHolder place changed).held + holder.permits = state.held + changed.permits := by
  obtain ⟨front, back, hsplit, hset⟩ := Emission.exists_split_of_getElem? h
  rw [held_eq_sum, held_eq_sum, holders_withHolder, hset, hsplit]
  simp
  omega

/-! ## Events -/

/-- What events do. -/
inductive Change (state : Shared) : Event → Shared → Prop
  | ask {place permits : Nat}
      (h : state.holders[place]? = some ⟨.working, permits⟩) :
      Change state (.ask place) (state.withHolder place ⟨.wantsPermit, permits⟩)
  | awaitIdle {place permits : Nat}
      (h : state.holders[place]? = some ⟨.working, permits⟩) :
      Change state (.awaitIdle place) (state.withHolder place ⟨.wantsIdle, permits⟩)
  | take {place permits : Nat} {pool : Pool}
      (h : state.holders[place]? = some ⟨.wantsPermit, permits⟩)
      (hp : state.pool.acquire? = some pool) :
      Change state (.look place)
        ({ state with pool := pool }.withHolder place ⟨.working, permits + 1⟩)
  | full {place permits : Nat}
      (h : state.holders[place]? = some ⟨.wantsPermit, permits⟩)
      (hp : state.pool.acquire? = none) :
      Change state (.look place) (state.withHolder place ⟨.sleepsForPermit, permits⟩)
  | idle {place permits : Nat}
      (h : state.holders[place]? = some ⟨.wantsIdle, permits⟩)
      (hp : state.pool.inUse = 0) :
      Change state (.look place) (state.withHolder place ⟨.working, permits⟩)
  | busy {place permits : Nat}
      (h : state.holders[place]? = some ⟨.wantsIdle, permits⟩)
      (hp : 0 < state.pool.inUse) :
      Change state (.look place) (state.withHolder place ⟨.sleepsForIdle, permits⟩)
  | wakeForPermit {place permits : Nat}
      (h : state.holders[place]? = some ⟨.sleepsForPermit, permits⟩) :
      Change state (.wake place) (state.withHolder place ⟨.wantsPermit, permits⟩)
  | wakeForIdle {place permits : Nat}
      (h : state.holders[place]? = some ⟨.sleepsForIdle, permits⟩) :
      Change state (.wake place) (state.withHolder place ⟨.wantsIdle, permits⟩)
  | giveBack {place permits : Nat}
      (h : state.holders[place]? = some ⟨.working, permits + 1⟩) :
      Change state (.giveBack place)
        ({ state with pool := state.pool.release }.withHolder place ⟨.working, permits⟩)
  | pass {place other permits : Nat} {receiver : Holder}
      (h : state.holders[place]? = some ⟨.working, permits + 1⟩)
      (hr : (state.withHolder place ⟨.working, permits⟩).holders[other]? = some receiver) :
      Change state (.pass place other)
        ((state.withHolder place ⟨.working, permits⟩).withHolder other
          { receiver with permits := receiver.permits + 1 })

theorem begin_eq_some_iff
    {activity : Activity} :
    state.begin place activity holder = some after ↔
      ∃ permits, holder = ⟨.working, permits⟩ ∧
        after = state.withHolder place ⟨activity, permits⟩ := by
  rcases holder with ⟨before, permits⟩
  cases before <;> simp [begin, eq_comm]

theorem spend?_eq_some_iff
    {poorer : Holder} :
    spend? holder = some poorer ↔
      ∃ permits, holder = ⟨.working, permits + 1⟩ ∧ poorer = ⟨.working, permits⟩ := by
  rcases holder with ⟨activity, permits⟩
  cases activity <;> cases permits <;> simp [spend?, eq_comm]

theorem change_of_look
    (hholder : state.holders[place]? = some holder)
    (h : state.look place holder = some after) :
    Change state (.look place) after := by
  rcases holder with ⟨activity, permits⟩
  cases activity with
  | wantsPermit =>
      cases hp : state.pool.acquire? with
      | some pool =>
          simp only [look, hp] at h
          cases h
          exact .take hholder hp
      | none =>
          simp only [look, hp] at h
          cases h
          exact .full hholder hp
  | wantsIdle =>
      by_cases hp : state.pool.inUse = 0
      · simp only [look, isIdle, hp] at h
        cases h
        exact .idle hholder hp
      · simp only [look, isIdle, beq_eq_false_iff_ne.mpr hp] at h
        cases h
        exact .busy hholder (Nat.pos_of_ne_zero hp)
  | working | sleepsForPermit | sleepsForIdle => cases h

theorem change_of_wake
    (hholder : state.holders[place]? = some holder)
    (h : state.wake place holder = some after) :
    Change state (.wake place) after := by
  rcases holder with ⟨activity, permits⟩
  cases activity with
  | sleepsForPermit =>
      cases h
      exact .wakeForPermit hholder
  | sleepsForIdle =>
      cases h
      exact .wakeForIdle hholder
  | working | wantsPermit | wantsIdle => cases h

theorem change_of_step
    (h : state.step event = some after) :
    Change state event after := by
  cases event with
  | ask place =>
      obtain ⟨holder, hholder, h⟩ := Option.bind_eq_some_iff.mp h
      obtain ⟨permits, rfl, rfl⟩ := begin_eq_some_iff.mp h
      exact .ask hholder
  | awaitIdle place =>
      obtain ⟨holder, hholder, h⟩ := Option.bind_eq_some_iff.mp h
      obtain ⟨permits, rfl, rfl⟩ := begin_eq_some_iff.mp h
      exact .awaitIdle hholder
  | look place =>
      obtain ⟨holder, hholder, h⟩ := Option.bind_eq_some_iff.mp h
      exact change_of_look hholder h
  | wake place =>
      obtain ⟨holder, hholder, h⟩ := Option.bind_eq_some_iff.mp h
      exact change_of_wake hholder h
  | giveBack place =>
      obtain ⟨holder, hholder, h⟩ := Option.bind_eq_some_iff.mp h
      obtain ⟨poorer, hspend, rfl⟩ := Option.map_eq_some_iff.mp h
      obtain ⟨permits, rfl, rfl⟩ := spend?_eq_some_iff.mp hspend
      exact .giveBack hholder
  | pass place other =>
      obtain ⟨holder, hholder, h⟩ := Option.bind_eq_some_iff.mp h
      obtain ⟨poorer, hspend, h⟩ := Option.bind_eq_some_iff.mp h
      obtain ⟨permits, rfl, rfl⟩ := spend?_eq_some_iff.mp hspend
      obtain ⟨receiver, hreceiver, rfl⟩ := Option.map_eq_some_iff.mp h
      exact .pass hholder hreceiver

/-- An event is possible exactly if it is one of those changes. -/
theorem step_eq_some_iff :
    state.step event = some after ↔ Change state event after := by
  refine ⟨change_of_step, fun h => ?_⟩
  cases h with
  | ask h | awaitIdle h => simp [step, h, begin]
  | take h hp | full h hp => simp [step, h, look, hp]
  | idle h hp => simp [step, h, look, isIdle, hp]
  | busy h hp => simp [step, h, look, isIdle, Nat.ne_of_gt hp]
  | wakeForPermit h | wakeForIdle h => simp [step, h, wake]
  | giveBack h => simp [step, h, Shared.giveBack, spend?]
  | pass h hr => simp [step, h, Shared.pass, spend?, hr]

/-- The other threads stay at what they are at. -/
theorem Change.activity_of_ne
    (h : Change state event after)
    (hne : event.actor ≠ place) :
    after.holders[place]?.map Holder.activity = state.holders[place]?.map Holder.activity := by
  cases h with
  | ask | awaitIdle | take | full | idle | busy | wakeForPermit | wakeForIdle | giveBack =>
      exact congrArg (Option.map Holder.activity) (getElem?_withHolder_ne hne _)
  | @pass actor other permits receiver h hr =>
      have hactor : (state.withHolder actor ⟨.working, permits⟩).holders[place]? =
          state.holders[place]? := getElem?_withHolder_ne hne _
      by_cases hother : other = place
      · -- the receiver has one more permit and stays at what it is at
        subst hother
        rw [getElem?_withHolder_self hr, ← hactor, hr]
        rfl
      · rw [getElem?_withHolder_ne hother, hactor]

/-- Whoever waits for an idle pool goes on at a look that finds no permit out. -/
theorem Change.working_iff
    (h : Change state event after)
    (hholder : state.holders[place]? = some holder)
    (hwaits : holder.activity.awaitsIdle = true) :
    after.holders[place]?.map Holder.activity = some .working ↔
      event = .look place ∧ state.pool.inUse = 0 := by
  rcases holder with ⟨activity, permits⟩
  by_cases hactor : event.actor = place
  · subst hactor
    cases h with
    | ask h | awaitIdle h | take h | full h | giveBack h | pass h | wakeForPermit h =>
        cases hholder.symm.trans h
        cases hwaits
    | idle h hp =>
        simp only [Event.actor, getElem?_withHolder_self h]
        simp [hp]
    | busy h hp =>
        simp only [Event.actor, getElem?_withHolder_self h]
        simp [Nat.ne_of_gt hp]
    | wakeForIdle h =>
        simp only [Event.actor, getElem?_withHolder_self h]
        simp
  · rw [h.activity_of_ne hactor, hholder]
    constructor
    · intro hworks
      cases Option.some.inj hworks
      cases hwaits
    · rintro ⟨rfl, -⟩
      exact absurd rfl hactor

/-! ## Counting -/

/-- The pool has its size and counts the permits that are held. -/
def Counted (wanted : Nat) (state : Shared) : Prop :=
  state.pool.size = max 1 wanted ∧ state.pool.inUse = state.held

variable {wanted threads : Nat}
variable {events : List Event}

/-- A thread that turns to something else keeps its permits. -/
theorem Counted.turn
    {permits : Nat}
    {before : Activity}
    (hcounted : Counted wanted state)
    (h : state.holders[place]? = some ⟨before, permits⟩)
    (activity : Activity) :
    Counted wanted (state.withHolder place ⟨activity, permits⟩) := by
  have hheld : _ + permits = state.held + permits := held_withHolder h ⟨activity, permits⟩
  exact ⟨hcounted.1, hcounted.2.trans (Nat.add_right_cancel hheld).symm⟩

theorem Change.counted
    (h : Change state event after)
    (hcounted : Counted wanted state) :
    Counted wanted after := by
  obtain ⟨hsize, huse⟩ := hcounted
  cases h with
  | ask h | awaitIdle h | full h | idle h | busy h | wakeForPermit h | wakeForIdle h =>
      exact Counted.turn ⟨hsize, huse⟩ h _
  | @take place permits pool h hp =>
      obtain ⟨hin, hsz⟩ := acquire?_eq_some hp
      have hheld : _ + permits = state.held + (permits + 1) :=
        @held_withHolder { state with pool := pool } place _ h ⟨.working, permits + 1⟩
      refine ⟨hsz.trans hsize, ?_⟩
      change pool.inUse = _
      omega
  | @giveBack place permits h =>
      have hheld : _ + (permits + 1) = state.held + permits :=
        @held_withHolder { state with pool := state.pool.release } place _ h ⟨.working, permits⟩
      refine ⟨hsize, ?_⟩
      change state.pool.inUse - 1 = _
      omega
  | @pass place other permits receiver h hr =>
      have hspent := held_withHolder h ⟨.working, permits⟩
      have hgiven := held_withHolder hr { receiver with permits := receiver.permits + 1 }
      refine ⟨hsize, huse.trans ?_⟩
      simp only at hspent hgiven
      omega

theorem counted_start
    (wanted threads : Nat) :
    Counted wanted (start wanted threads) := by
  refine ⟨rfl, ?_⟩
  rw [held_eq_sum]
  simp [start, ofSize]

theorem run_cons_eq_some_iff :
    state.run (event :: events) = some after ↔
      ∃ middle, state.step event = some middle ∧ middle.run events = some after := by
  simp only [run, List.foldlM_cons, Option.bind_eq_bind, Option.bind_eq_some_iff]

theorem run_append
    {middle : Shared}
    (h : state.run events = some middle)
    (more : List Event) :
    state.run (events ++ more) = middle.run more := by
  unfold run at h ⊢
  rw [List.foldlM_append, h]
  rfl

/-- A pool counts the permits that are held, whatever its threads do. -/
theorem Counted.run
    (hcounted : Counted wanted state)
    (h : state.run events = some after) :
    Counted wanted after := by
  induction events generalizing state with
  | nil =>
      cases h
      exact hcounted
  | cons event rest ih =>
      obtain ⟨middle, hstep, hrest⟩ := run_cons_eq_some_iff.mp h
      exact ih ((change_of_step hstep).counted hcounted) hrest

theorem counted_run
    (h : (start wanted threads).run events = some state) :
    Counted wanted state :=
  (counted_start wanted threads).run h

theorem Counted.held_le
    (h : Counted wanted state) :
    state.held ≤ max 1 wanted := by
  obtain ⟨hsize, huse⟩ := h
  have hle := state.pool.inUse_le_size
  omega

/-- A permit that is returned was out. -/
theorem Counted.inUse_giveBack
    (hcounted : Counted wanted state)
    (h : state.step (.giveBack place) = some after) :
    0 < state.pool.inUse ∧ after.pool.inUse + 1 = state.pool.inUse := by
  cases change_of_step h with
  | @giveBack _ permits hholder =>
      have hheld := held_withHolder hholder ⟨.working, permits⟩
      have hpos : 0 < state.pool.inUse := by
        rw [hcounted.2]
        simp only at hheld
        omega
      exact ⟨hpos, Nat.sub_add_cancel hpos⟩

end Shared
end Pool

/-! ## Permits of an emission -/

namespace Emission

open Pool (Shared)

variable {job : Job}
variable {tree : FileTree}
variable {state after : State}

/-- Whether a worker renders or writes a file. -/
def WorkerPhase.isBusy : WorkerPhase → Bool
  | rendering _ _ _ | writing _ _ _ _ => true
  | _ => false

/-- The number of models that are being rendered or written. -/
def State.busy (state : State) : Nat :=
  state.workers.countP fun worker => worker.phase.isBusy

/-- A worker as a holder of a permit. -/
def Worker.holder (worker : Worker) : Pool.Holder :=
  { permits := if worker.isGone then 0 else 1 }

/-- The threads of an emission with their pool: the submitter, the workers in the order in which
they were started, and threads for the models that have no worker yet. -/
def State.shared (job : Job) (state : State) : Shared :=
  ⟨state.pool, { permits := state.submitter.permits } ::
    (state.workers.map Worker.holder ++
      List.replicate (job.models.length - state.workers.length) ({} : Pool.Holder))⟩

theorem State.held_shared
    (job : Job)
    (state : State) :
    (state.shared job).held = state.active + state.submitter.permits := by
  have hworkers : ∀ workers : List Worker,
      (workers.map fun worker => worker.holder.permits).sum =
        workers.countP fun worker => !worker.isGone := by
    intro workers
    induction workers with
    | nil => rfl
    | cons worker rest ih =>
        rw [List.map_cons, List.sum_cons, ih, List.countP_cons, Worker.holder]
        cases worker.isGone
        · exact Nat.add_comm _ _
        · exact Nat.zero_add _
  rw [Shared.held_eq_sum]
  simp [State.shared, hworkers, State.active, Function.comp_def]
  omega

/-- Whoever renders or writes is not gone. -/
theorem State.busy_le_active
    (state : State) :
    state.busy ≤ state.active := by
  apply List.countP_mono_left
  intro worker _ hbusy
  unfold Worker.isGone
  cases hphase : worker.phase with
  | gone =>
      rw [hphase] at hbusy
      cases hbusy
  | _ => rfl

/-- Each step of an emission is nothing, or one permit taken, passed on or returned. -/
theorem Step.exists_run_shared
    (h : Step job state after)
    (hreach : Reaches job tree state) :
    ∃ events, (state.shared job).run events = some (after.shared job) := by
  cases h with
  | finish hs => exact ⟨[], by simp [Shared.run, State.shared, hs, SubmitterPhase.permits]⟩
  | enter hs hp =>
      refine ⟨[.ask 0, .look 0], ?_⟩
      simp [Shared.run, Shared.step, Shared.begin, Shared.look, Shared.withHolder, State.shared, hs,
        hp, SubmitterPhase.permits]
  | giveUp hs hstop =>
      refine ⟨[.giveBack 0], ?_⟩
      simp [Shared.run, Shared.step, Shared.giveBack, Shared.spend?, Shared.withHolder,
        State.shared, hs, SubmitterPhase.permits]
  | @begin model index rest hs hgo =>
      refine ⟨[.pass 0 (state.workers.length + 1)], ?_⟩
      -- the model has a thread that waits for its permit
      obtain ⟨left, hentries, hleft⟩ := hreach.entries
      rw [hs] at hleft
      obtain rfl : left = (model, index) :: rest := hleft
      have hcount := congrArg List.length hentries
      simp only [List.length_append, List.length_map, List.length_cons, List.length_zipIdx]
        at hcount
      have hthreads : job.models.length - state.workers.length = rest.length + 1 := by omega
      have hothers : job.models.length - (state.workers.length + 1) = rest.length := by omega
      simp [Shared.run, Shared.step, Shared.pass, Shared.spend?, Shared.withHolder, State.shared,
        hs, SubmitterPhase.permits, hthreads, hothers, List.replicate_succ, Worker.holder,
        Worker.isGone, WorkerPhase.isGone, WorkerPhase.before, ModelFile.all]
  | join hs hgone => exact ⟨[], by simp [Shared.run, State.shared, hs, SubmitterPhase.permits]⟩
  | @work front back worker later made hw hn =>
      rcases WorkerPhase.leaves_or_stays hn state.pool with ⟨result, hphase, rfl⟩ | ⟨hstays, hpool⟩
      · refine ⟨[.giveBack (front.length + 1)], ?_⟩
        simp [Shared.run, Shared.step, Shared.giveBack, Shared.spend?, Shared.withHolder,
          State.shared, hw, Worker.holder, Worker.isGone, hphase, WorkerPhase.isGone,
          WorkerPhase.poolAfter]
      · have hsame : ({ worker with phase := later } : Worker).holder = worker.holder := by
          unfold Worker.holder Worker.isGone
          rw [hstays]
        exact ⟨[], by simp [Shared.run, State.shared, hw, hpool, hsame]⟩

/-- An emission uses its pool as threads can. -/
theorem Reaches.exists_run_shared
    (h : Reaches job tree state) :
    ∃ events,
      (Shared.start job.workers (job.models.length + 1)).run events = some (state.shared job) := by
  induction h with
  | start => exact ⟨[], rfl⟩
  | move move hreach hmove ih =>
      obtain ⟨events, hrun⟩ := ih
      obtain ⟨more, hmore⟩ := (State.step_of_move hmove).exists_run_shared hreach
      refine ⟨events ++ more, ?_⟩
      rw [Shared.run_append hrun, hmore]

/-- Whoever renders or writes holds a permit of the pool. -/
theorem Reaches.busy_le
    (h : Reaches job tree state) :
    state.busy ≤ max 1 job.workers := by
  obtain ⟨events, hrun⟩ := h.exists_run_shared
  calc
    state.busy ≤ state.active := state.busy_le_active
    _ ≤ (state.shared job).held := by
      rw [State.held_shared]
      exact Nat.le_add_right _ _
    _ ≤ max 1 job.workers := (Shared.counted_run hrun).held_le

end Emission

namespace Pool
namespace Shared

variable {wanted threads : Nat}
variable {events : List Event}
variable {state : Shared}

/-- **The pool counts its permits.**  Let any number of threads take, pass on and return permits,
look whether the pool is idle, and sleep and wake at any time.  Then the number in the pool is that
of the permits that are held, which never exceeds the size of the pool; a permit that is returned
was counted; and a thread that waits for an idle pool goes on exactly when it looks while no permit
is held.  An emission is a run of such threads, so that it renders and writes no more models at a
time than it may have workers. -/
theorem run_counts
    (h : (start wanted threads).run events = some state) :
    state.pool.size = max 1 wanted ∧
    state.pool.inUse = state.held ∧
    state.held ≤ state.pool.size ∧
    (∀ place after, state.step (.giveBack place) = some after →
      0 < state.pool.inUse ∧ after.pool.inUse + 1 = state.pool.inUse) ∧
    (∀ event after place holder,
      state.step event = some after → state.holders[place]? = some holder →
        holder.activity.awaitsIdle = true →
          (after.holders[place]?.map Holder.activity = some .working ↔
            event = .look place ∧ state.held = 0)) ∧
    ∀ job tree emission, Emission.Reaches job tree emission →
      (∃ uses, (start job.workers (job.models.length + 1)).run uses =
        some (emission.shared job)) ∧
      emission.busy ≤ max 1 job.workers := by
  have hcounted := counted_run h
  refine ⟨hcounted.1, hcounted.2, hcounted.1 ▸ hcounted.held_le, ?_, ?_, ?_⟩
  · intro place after hstep
    exact hcounted.inUse_giveBack hstep
  · intro event after place holder hstep hholder hwaits
    rw [← hcounted.2]
    exact (change_of_step hstep).working_iff hholder hwaits
  · intro job tree emission hreach
    exact ⟨hreach.exists_run_shared, hreach.busy_le⟩

/-- One permit and three threads: the second one sleeps, wakes too early and sleeps again, the
first one passes the permit to the third, which returns it for the second, and then waits until
the pool is idle. -/
def onePermit : List Event :=
  [.ask 0, .look 0, .ask 1, .look 1, .wake 1, .look 1, .pass 0 2, .giveBack 2, .wake 1, .look 1,
    .awaitIdle 0]

theorem onePermit_counts :
    ∃ state emission,
      (start 0 3).run onePermit = some state ∧
        state.holders.map Holder.permits = [0, 1, 0] ∧
        state.pool.inUse = 1 ∧ state.held ≤ 1 ∧
        (∃ after, state.step (.giveBack 1) = some after ∧
          0 < state.pool.inUse ∧ after.pool.inUse + 1 = state.pool.inUse) ∧
        (∃ after, state.step (.look 0) = some after ∧
          after.holders[0]?.map Holder.activity ≠ some .working) ∧
        Emission.Reaches Emission.fieldlessPair {} emission ∧
        emission.busy = 2 ∧ emission.busy ≤ max 1 Emission.fieldlessPair.workers := by
  obtain ⟨state, hrun, hpermits, hback, hlook⟩ :
      ∃ state, (start 0 3).run onePermit = some state ∧
        state.holders = [⟨.wantsIdle, 0⟩, ⟨.working, 1⟩, ⟨.working, 0⟩] ∧
        (state.step (.giveBack 1)).isSome = true ∧ (state.step (.look 0)).isSome = true :=
    ⟨_, rfl, rfl, rfl, rfl⟩
  obtain ⟨emission, hemission, hbusy⟩ :
      ∃ emission, (Emission.State.start Emission.fieldlessPair {}).run Emission.fieldlessPair
        (Emission.bothFail.take 6) = some emission ∧ emission.busy = 2 :=
    ⟨_, rfl, rfl⟩
  have hreach := Emission.reaches_iff_exists_run.mpr ⟨_, hemission⟩
  obtain ⟨hsize, huse, hheld, hreturn, hidle, hworkers⟩ := run_counts hrun
  have hone : state.held = 1 := by
    rw [held, hpermits]
    rfl
  obtain ⟨returned, hreturned⟩ := Option.isSome_iff_exists.mp hback
  obtain ⟨looked, hlooked⟩ := Option.isSome_iff_exists.mp hlook
  have hwaits := hidle _ _ 0 _ hlooked (by rw [hpermits]; rfl) rfl
  refine ⟨state, emission, hrun, by rw [hpermits]; rfl, huse.trans hone, Nat.le_of_eq hone,
    ⟨returned, hreturned, hreturn _ _ hreturned⟩, ⟨looked, hlooked, ?_⟩, hreach, hbusy,
    (hworkers _ _ _ hreach).2⟩
  rw [Ne, hwaits, hone]
  simp

end Shared
end Pool
end GormForge
