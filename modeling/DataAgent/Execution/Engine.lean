import DataAgent.Compile.Query
import DataAgent.Execution.Pool
import DataAgent.Execution.Result
import DataAgent.Response.Report
import DataAgent.Sql.Render

/-!
# Execution — Engine

What the agent asks of a database engine, whatever the engine is, and what it makes of the
results: a failure after the time is over is a timeout.
-/

namespace DataAgent

/-- An entry of a database's list of tables: the name, and the statement that created it. -/
structure SchemaEntry where
  name : String
  definition : Option String
  deriving DecidableEq, Repr

/-- How a statement ended. -/
structure Outcome (α : Type) where
  result : Except Sql.EngineError α
  /-- The time for the statement was over by then. -/
  overdue : Bool := false

/-- The connections of a pool. -/
structure Connections where
  /-- All that are open. -/
  size : Nat
  /-- Those that nothing uses. -/
  idle : Nat
  deriving DecidableEq, Repr

/-- An engine, which acts on a state of its own. Statements come with the seconds they may run. -/
structure Engine (σ : Type) where
  query : Pool → Option Nat → Sql.Select → StateM σ (Outcome (List ResultRow))
  explain : Pool → Option Nat → Sql.Select → StateM σ (Outcome (List String))
  /-- A trivial statement gives what it has to. -/
  healthy : Pool → StateM σ (Except Sql.EngineError Bool)
  entries : Pool → StateM σ (Except Sql.EngineError (List SchemaEntry))
  connections : σ → Pool → Connections

/-- What is made of a statement's end. -/
def Outcome.settle {α : Type} (limit : Option Nat) (o : Outcome α) : Except ExecutionError α :=
  match o.result, limit with
  | .ok a,    _            => .ok a
  | .error e, some seconds => .error (if o.overdue then .timeout seconds else .engine e)
  | .error e, none         => .error (.engine e)

namespace Engine

variable {σ : Type}

/-- The answer to a compiled request. -/
def execute (engine : Engine σ) (pool : Pool) (limit : Option Nat) (plan : Plan) :
    StateM σ (Except ExecutionError QueryResponse) := do
  let outcome ← engine.query pool limit plan.select
  return do decodeResult plan.resultColumn (← outcome.settle limit)

/-- How the engine would run a compiled request. -/
def describe (engine : Engine σ) (pool : Pool) (limit : Option Nat) (plan : Plan) :
    StateM σ (Except ExecutionError ExplainResponse) := do
  let outcome ← engine.explain pool limit plan.select
  return do return { lines := ← outcome.settle limit, query := plan.select.statement.text }

end Engine

end DataAgent
