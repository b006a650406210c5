import GormForge.Emission.Pool

/-!
# Holders of permits

Threads that take the permits of a pool, hold them, pass them on and return them.

**Algorithm.**  A thread that wants something looks at the pool in one step; if it cannot
have it, it goes to sleep.  A sleeping thread may wake at any time, with or without a
reason, and then looks again.

**Results.**  `run` is the state after a list of events, and `held` the number of permits
that were taken and not returned.
-/

namespace GormForge
namespace Pool

/-- What a thread is doing. -/
inductive Activity where
  | working
  /-- About to look for a free permit. -/
  | wantsPermit
  /-- Asleep because no permit was free. -/
  | sleepsForPermit
  /-- About to look whether all permits are free. -/
  | wantsIdle
  /-- Asleep because a permit was out. -/
  | sleepsForIdle
  deriving Repr, DecidableEq

/-- A thread. -/
structure Holder where
  activity : Activity := .working
  /-- The number of permits it holds. -/
  permits : Nat := 0
  deriving Repr, DecidableEq

/-- A pool with the threads that use it. -/
structure Shared where
  pool : Pool
  holders : List Holder

/-- What can happen next; threads go by their places. -/
inductive Event where
  /-- A working thread begins to want a permit. -/
  | ask (place : Nat)
  /-- A working thread begins to wait until all permits are free. -/
  | awaitIdle (place : Nat)
  /-- A thread that wants something looks at the pool. -/
  | look (place : Nat)
  /-- A sleeping thread wakes. -/
  | wake (place : Nat)
  /-- A working thread returns a permit. -/
  | giveBack (place : Nat)
  /-- A working thread passes a permit on. -/
  | pass (place other : Nat)
  deriving Repr, DecidableEq

namespace Shared

/-- The number of permits that were taken and not returned. -/
def held (state : Shared) : Nat :=
  state.holders.foldr (fun holder total => holder.permits + total) 0

/-- The state after a thread has changed. -/
def withHolder (state : Shared) (place : Nat) (holder : Holder) : Shared :=
  { state with holders := state.holders.set place holder }

/-- A thread looks at the pool. -/
def look (state : Shared) (place : Nat) (holder : Holder) : Option Shared :=
  match holder.activity with
  | .wantsPermit =>
    match state.pool.acquire? with
    | some pool =>
        some ({ state with pool := pool }.withHolder place
          { activity := .working, permits := holder.permits + 1 })
    | Option.none => some (state.withHolder place { holder with activity := .sleepsForPermit })
  | .wantsIdle =>
      some (state.withHolder place
        { holder with activity := if state.pool.isIdle then .working else .sleepsForIdle })
  | _ => Option.none

/-- A thread wakes. -/
def wake (state : Shared) (place : Nat) (holder : Holder) : Option Shared :=
  match holder.activity with
  | .sleepsForPermit => some (state.withHolder place { holder with activity := .wantsPermit })
  | .sleepsForIdle => some (state.withHolder place { holder with activity := .wantsIdle })
  | _ => Option.none

/-- Let a working thread begin something else. -/
def begin (state : Shared) (place : Nat) (activity : Activity) (holder : Holder) :
    Option Shared :=
  if holder.activity = .working then
    some (state.withHolder place { holder with activity := activity })
  else
    Option.none

/-- A thread that works and holds a permit, without that permit. -/
def spend? (holder : Holder) : Option Holder :=
  match holder.activity, holder.permits with
  | .working, permits + 1 => some { holder with permits := permits }
  | _, _ => Option.none

/-- A working thread returns a permit. -/
def giveBack (state : Shared) (place : Nat) (holder : Holder) : Option Shared :=
  (spend? holder).map fun poorer =>
    { state with pool := state.pool.release }.withHolder place poorer

/-- A working thread passes a permit on. -/
def pass (state : Shared) (place other : Nat) (holder : Holder) : Option Shared :=
  (spend? holder).bind fun poorer =>
    let spent := state.withHolder place poorer
    spent.holders[other]?.map fun receiver =>
      spent.withHolder other { receiver with permits := receiver.permits + 1 }

/-- The state after an event, if the event is possible. -/
def step (state : Shared) : Event → Option Shared
  | .ask place => state.holders[place]?.bind (state.begin place .wantsPermit)
  | .awaitIdle place => state.holders[place]?.bind (state.begin place .wantsIdle)
  | .look place => state.holders[place]?.bind (state.look place)
  | .wake place => state.holders[place]?.bind (state.wake place)
  | .giveBack place => state.holders[place]?.bind (state.giveBack place)
  | .pass place other => state.holders[place]?.bind (state.pass place other)

/-- The state after a list of events, if all of them are possible. -/
def run (state : Shared) (events : List Event) : Option Shared :=
  events.foldlM step state

/-- A pool that nobody has used yet, with a number of threads. -/
def start (wanted threads : Nat) : Shared :=
  ⟨Pool.ofSize wanted, List.replicate threads {}⟩

end Shared
end Pool
end GormForge
