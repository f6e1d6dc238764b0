import DataAgent.Request.Decode
import DataAgent.Response.Capabilities
import DataAgent.Service.Failure
import DataAgent.Service.Metrics

/-!
# Service — Agent

What the agent does for each kind of request. A query is compiled before a database is chosen for
it, and run last; a failure ends the request and keeps what changed before it.
-/

namespace DataAgent

/-- An agent: its configuration, the engine that runs its statements, and the reader of stored
definitions. -/
structure Agent (σ : Type) where
  configuration : Configuration
  engine : Engine σ
  read : DefinitionReader

/-- What changes from request to request. -/
structure AgentState (σ : Type) where
  engine : σ
  pools : Pools := {}
  counters : Counters := {}

/-- Serves a part of a request, which may fail. -/
abbrev Service (σ α : Type) := ExceptT Failure (StateM (AgentState σ)) α

namespace Service

variable {σ α ε : Type}

/-- A result that may be a failure. -/
def ofExcept (f : ε → Failure) : Except ε α → Service σ α
  | .ok a    => pure a
  | .error e => throw (f e)

/-- A step of the engine. -/
def onEngine (step : StateM σ α) : Service σ α := ExceptT.mk fun state =>
  let (a, engine) := step.run state.engine
  (.ok a, { state with engine })

/-- A change of the counters. -/
def count (f : Counters → Counters) : Service σ Unit :=
  modify fun state => { state with counters := f state.counters }

end Service

namespace Agent

open Service

variable {σ : Type}

/-- The settings that a request brings. -/
def connectorConfig (r : HttpRequest) : Except Failure ConnectorConfig :=
  (ConnectorConfig.ofHeader (r.header? ConnectorConfig.headerName)).mapError .header

/-- The most bytes that a body may have. -/
def bodyLimit : Nat := 2097152

/-- The query that a request brings. -/
def queryRequest (r : HttpRequest) : Except Failure Request :=
  if r.bringsJson then
    if r.body.size ≤ bodyLimit then
      (decodeLeading Request.decoder r.body).mapError fun e => .body (.ofDecodeError e)
    else .error (.body .tooLarge)
  else .error (.body .notJson)

/-- The pool of the database that a request is for, if it is for one. -/
def pool? (a : Agent σ) (requested : Option String) : Service σ (Option Pool) := do
  let state ← get
  let (answer, pools) := a.configuration.pool requested state.pools
  set { state with pools }
  match answer with
  | .unselected  => return none
  | .denied name => throw (.denied name)
  | .pool pool   => return some pool

/-- The pool of the database that a request is for. -/
def pool (a : Agent σ) (requested : Option String) : Service σ Pool := do
  match ← a.pool? requested with
  | some pool => return pool
  | none      => throw .noDatabase

/-- How long a statement may run. -/
def limit (a : Agent σ) : Option Nat := a.configuration.querySettings.timeoutSeconds

/-- The statement of the query that a request brings, and the settings it brings. -/
def plan (a : Agent σ) (r : HttpRequest) : Except Failure (ConnectorConfig × Plan) := do
  let config ← connectorConfig r
  let request ← queryRequest r
  let plan ← (request.compile a.configuration.querySettings).mapError .compile
  return (config, plan)

/-- The answer to a query. -/
def query (a : Agent σ) (r : HttpRequest) : Service σ Json := do
  let (config, plan) ← ofExcept id (a.plan r)
  let pool ← a.pool config.db
  let response ← ofExcept .execution (← onEngine (a.engine.execute pool a.limit plan))
  count fun c => { c with queries := c.queries + 1 }
  return response.json

/-- How a query would be run. -/
def explain (a : Agent σ) (r : HttpRequest) : Service σ Json := do
  let (config, plan) ← ofExcept id (a.plan r)
  let pool ← a.pool config.db
  let response ← ofExcept .execution (← onEngine (a.engine.describe pool a.limit plan))
  count fun c => { c with explains := c.explains + 1 }
  return response.json

/-- The tables of the database, as far as the request wants them. -/
def schema (a : Agent σ) (r : HttpRequest) : Service σ Json := do
  let config ← ofExcept id (connectorConfig r)
  let pool ← a.pool config.db
  let entries ← ofExcept .engine (← onEngine (a.engine.entries pool))
  let filter : TableFilter := { tables := config.tables, includeMeta := config.includeMeta }
  let tables ← ofExcept .introspection (introspect a.read filter entries)
  return ({ tables := tables.map TableInfo.schema } : SchemaResponse).json

/-- The response when a database does not answer as it should. -/
def unhealthy : HttpResponse :=
  .json .internalError (.obj [("error", .str "problem executing query")])

/-- Whether the agent, and the database if the request is for one, answer. -/
def health (a : Agent σ) (r : HttpRequest) : Service σ HttpResponse := do
  let config ← ofExcept id (connectorConfig r)
  match ← a.pool? config.db with
  | none => return { status := .noContent }
  | some pool =>
    match ← onEngine (a.engine.healthy pool) with
    | .ok true => return { status := .noContent }
    | _        => return unhealthy

/-- The report of what was counted. -/
def metrics (a : Agent σ) : StateM (AgentState σ) HttpResponse := do
  let state ← get
  let connections := state.pools.entries.map fun (_, pool) =>
    a.engine.connections state.engine pool
  return .text (Metric.report state.counters (.total connections))

/-- The response of an action that gives one. -/
def respond (action : Service σ HttpResponse) : StateM (AgentState σ) HttpResponse := do
  match ← ExceptT.run action with
  | .ok response => return response
  | .error f     => return f.response

/-- The response of an action that gives a document. -/
def answer (action : Service σ Json) : Service σ HttpResponse := return .json .ok (← action)

/-- The action, with its failure counted. -/
def counted (action : Service σ Json) : Service σ Json :=
  tryCatch action fun f => do
    count fun c => { c with errors := c.errors + 1 }
    throw f

end Agent

end DataAgent
