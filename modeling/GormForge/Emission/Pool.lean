/-!
# Worker pools

A pool of permits that bounds how many workers run, and a flag that tells them to stop.

**Results.**  `acquire?` gives a permit only while one is free, so that no more permits are
out than the pool has; a pool always has at least one.
-/

namespace GormForge

/-- A pool of permits. -/
structure Pool where
  size : Nat
  inUse : Nat := 0
  inUse_le_size : inUse ≤ size := by omega

namespace Pool

/-- A pool with as many permits as wanted, at least one, all of them free. -/
def ofSize (wanted : Nat) : Pool :=
  { size := max 1 wanted }

/-- Take a permit, if one is free. -/
def acquire? (pool : Pool) : Option Pool :=
  if h : pool.inUse < pool.size then
    some { size := pool.size, inUse := pool.inUse + 1, inUse_le_size := h }
  else
    none

/-- Return a permit. -/
def release (pool : Pool) : Pool :=
  { size := pool.size, inUse := pool.inUse - 1,
    inUse_le_size := Nat.le_trans (Nat.sub_le _ _) pool.inUse_le_size }

/-- Whether every permit is free. -/
def isIdle (pool : Pool) : Bool :=
  pool.inUse == 0

/-- The pool after every permit was returned. -/
def drained (pool : Pool) : Pool :=
  { size := pool.size, inUse := 0, inUse_le_size := Nat.zero_le _ }

@[simp] theorem size_ofSize
    (wanted : Nat) :
    (ofSize wanted).size = max 1 wanted := by
  rfl

theorem acquire?_eq_none_iff
    {pool : Pool} :
    pool.acquire? = none ↔ pool.inUse = pool.size := by
  have h := pool.inUse_le_size
  unfold acquire?
  split
  · simp
    omega
  · simp
    omega

theorem acquire?_eq_some
    {pool taken : Pool}
    (h : pool.acquire? = some taken) :
    taken.inUse = pool.inUse + 1 ∧ taken.size = pool.size := by
  unfold acquire? at h
  split at h
  · cases h
    exact ⟨rfl, rfl⟩
  · cases h

@[simp] theorem inUse_release
    (pool : Pool) :
    pool.release.inUse = pool.inUse - 1 := by
  rfl

@[simp] theorem size_release
    (pool : Pool) :
    pool.release.size = pool.size := by
  rfl

/-! ## Steps of holders -/

/-- What the holders of permits can do. -/
inductive Step where
  | acquire
  | release
  /-- A waiting holder takes the permit that another one returns. -/
  | handOff
  /-- Wait until all permits were returned. -/
  | waitIdle
  deriving Repr, DecidableEq

/-- What became of a step. -/
inductive Note where
  | acquired
  | full
  | released
  | handed
  | idle
  | none
  deriving Repr, DecidableEq

/-- Take a step. -/
def step (pool : Pool) : Step → Note × Pool
  | .acquire =>
    match pool.acquire? with
    | some taken => (.acquired, taken)
    | Option.none => (.full, pool)
  | .release => if pool.isIdle then (.none, pool) else (.released, pool.release)
  | .handOff =>
    if pool.inUse = pool.size then
      match pool.release.acquire? with
      | some taken => (.handed, taken)
      | Option.none => (.none, pool)
    else
      (.none, pool)
  | .waitIdle => (.idle, pool.drained)

end Pool
end GormForge
