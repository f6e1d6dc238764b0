import DataAgent.Execution.Engine

/-!
# Service — Metrics

What the agent counts, and the text that reports it. The connections are not counted but summed
over the pools when they are reported.
-/

namespace DataAgent

/-- What the agent counted since it started. -/
structure Counters where
  /-- Queries that succeeded. -/
  queries : Nat := 0
  /-- Explanations of queries that succeeded. -/
  explains : Nat := 0
  /-- Queries and explanations that failed. -/
  errors : Nat := 0
  deriving DecidableEq, Repr

/-- The connections of all pools. -/
def Connections.total (all : List Connections) : Connections :=
  all.foldr (fun c rest => { size := c.size + rest.size, idle := c.idle + rest.idle })
    { size := 0, idle := 0 }

/-- Whether a metric only grows. -/
inductive MetricKind
  | counter
  | gauge
  deriving DecidableEq, Repr

/-- A reported number. -/
structure Metric where
  name : String
  help : String
  kind : MetricKind
  value : Nat
  deriving DecidableEq, Repr

namespace Metric

/-- The name of a kind of metric. -/
def kindName : MetricKind → String
  | .counter => "counter"
  | .gauge   => "gauge"

/-- The lines that report a metric. -/
def text (m : Metric) : String :=
  let name := "sqlite_ndc_" ++ m.name
  "# HELP " ++ name ++ " " ++ m.help ++ "\n" ++
  "# TYPE " ++ name ++ " " ++ kindName m.kind ++ "\n" ++
  name ++ " " ++ String.ofList (Nat.toDigits 10 m.value) ++ "\n"

/-- All metrics, by their names. -/
def all (counters : Counters) (connections : Connections) : List Metric :=
  [{ name := "explain_total", kind := .counter, value := counters.explains
     help := "Total successful explains." },
   { name := "pool_idle", kind := .gauge, value := connections.idle
     help := "The number of open connections across all database pools that are idle." },
   { name := "pool_size", kind := .gauge, value := connections.size
     help := "The number of open connections across all database pools. This includes idle " ++
       "connections." },
   { name := "query_errors_total", kind := .counter, value := counters.errors
     help := "Total queries and explains that failed." },
   { name := "query_total", kind := .counter, value := counters.queries
     help := "Total successful queries." }]

/-- The report of all metrics. -/
def report (counters : Counters) (connections : Connections) : String :=
  ((all counters connections).map text).foldl (· ++ ·) ""

end Metric

end DataAgent
