import DataAgent.Config.Runtime

/-!
# Execution — Pool

Connection pools, one a database, which are made when a database is first asked for. A call that
asks for one resolves the name, looks whether the pool is there, and if it is not, enters it under
a lock, where it looks again: each is a step of `PoolCall`, so that calls may interleave.
`Configuration.pool` is a call on its own.
-/

namespace DataAgent

/-- A pool of connections to a database. -/
structure Pool where
  /-- Which of the pools ever made it is. -/
  serial : Nat
  connection : ConnectionSettings
  limits : PoolSettings
  deriving DecidableEq, Repr

/-- The pools that were made, by the names of their databases. -/
structure Pools where
  entries : Members Pool := []
  /-- How many were made. -/
  made : Nat := 0
  deriving DecidableEq, Repr

namespace Pools

/-- The pool of a database, if it was made. -/
def get? (pools : Pools) (name : String) : Option Pool := Members.get? pools.entries name

/-- The pool of a database, which is made unless it is there. -/
def enter (limits : PoolSettings) (name : String) (connection : ConnectionSettings)
    (pools : Pools) : Pool × Pools :=
  match pools.get? name with
  | some pool => (pool, pools)
  | none =>
    let pool := { serial := pools.made, connection, limits }
    (pool, { entries := pools.entries ++ [(name, pool)], made := pools.made + 1 })

end Pools

/-- What a call for a pool gives. -/
inductive PoolAnswer
  /-- No database was asked for, and none is the default. -/
  | unselected
  | denied (name : String)
  | pool (pool : Pool)
  deriving DecidableEq, Repr

/-- How far a call for a pool is. -/
inductive PoolCall
  | asked (requested : Option String)
  | resolved (name : String) (connection : ConnectionSettings)
  | missed (name : String) (connection : ConnectionSettings)
  | answered (answer : PoolAnswer)
  deriving DecidableEq, Repr

/-- The next step of a call. -/
def PoolCall.step (c : Configuration) : PoolCall → Pools → PoolCall × Pools
  | .asked requested, pools =>
    match c.select requested with
    | .none                     => (.answered .unselected, pools)
    | .denied name              => (.answered (.denied name), pools)
    | .database name connection => (.resolved name connection, pools)
  | .resolved name connection, pools =>
    match pools.get? name with
    | some pool => (.answered (.pool pool), pools)
    | none      => (.missed name connection, pools)
  | .missed name connection, pools =>
    let (pool, pools) := pools.enter c.poolSettings name connection
    (.answered (.pool pool), pools)
  | .answered answer, pools => (.answered answer, pools)

/-- The answer to a call that nothing comes between, and the pools after it. -/
def Configuration.pool (c : Configuration) (requested : Option String) (pools : Pools) :
    PoolAnswer × Pools :=
  match c.select requested with
  | .none                     => (.unselected, pools)
  | .denied name              => (.denied name, pools)
  | .database name connection =>
    let (pool, pools) := pools.enter c.poolSettings name connection
    (.pool pool, pools)

end DataAgent
