import DataAgent.Catalog.Table
import DataAgent.Config.Connector

/-!
# Response — Capabilities

What the agent tells clients it can do. The parts without members are only there or not, so they
leave nothing to keep.
-/

namespace DataAgent

open Decode

/-- The aggregates and the further comparisons of a scalar type, each with the type of its
result or operand. -/
structure ScalarTypeCapabilities where
  aggregateFunctions : Members String := []
  comparisonOperators : Members String := []
  deriving DecidableEq, Repr

/-- What the agent can do. -/
structure Capabilities where
  /-- Filters may compare columns of related tables. -/
  supportsRelations : Bool
  scalarTypes : Members ScalarTypeCapabilities
  deriving DecidableEq, Repr

/-- Names as a document. -/
def Json.names (m : Members String) : Json := .obj (m.map fun (key, name) => (key, .str name))

namespace ScalarTypeCapabilities

/-- The capabilities of a type as a document. -/
def json (c : ScalarTypeCapabilities) : Json :=
  .obj (Json.memberIfAny "aggregate_functions" .names c.aggregateFunctions ++
    Json.memberIfAny "comparison_operators" .names c.comparisonOperators)

/-- The capabilities of a type of a document. -/
def decoder : Decoder ScalarTypeCapabilities :=
  record "ScalarTypeCapabilities"
    (.cons (.withDefault "aggregate_functions" (members string) []) <|
      .cons (.withDefault "comparison_operators" (members string) []) .nil)
    fun (aggregateFunctions, comparisonOperators, ()) =>
      { aggregateFunctions, comparisonOperators }

/-- What the agent can do with a column of a type. -/
def ofType (t : ScalarType) : ScalarTypeCapabilities :=
  { aggregateFunctions := t.aggregates.map fun (function, result) => (function, result.name) }

end ScalarTypeCapabilities

namespace Capabilities

/-- The capabilities as a document. -/
def json (c : Capabilities) : Json :=
  .obj [("queries", .obj []), ("relationships", .obj []),
    ("comparisons", .obj [("subquery", .obj [("supports_relations", .bool c.supportsRelations)])]),
    ("explain", .obj []), ("metrics", .obj []),
    ("scalar_types", .obj (c.scalarTypes.map fun (name, t) => (name, t.json)))]

/-- A part without members. -/
def emptyPart (name : String) : Decoder Unit := record name .nil id

/-- The capabilities of a document. -/
def decoder : Decoder Capabilities :=
  let subquery : Decoder Bool :=
    record "SubqueryComparisonCapabilities" (.cons (.required "supports_relations" boolean) .nil)
      fun (supports, ()) => supports
  let comparisons : Decoder Bool :=
    record "ComparisonCapabilities" (.cons (.required "subquery" subquery) .nil)
      fun (supports, ()) => supports
  record "Capabilities"
    (.cons (.required "queries" (emptyPart "QueryCapabilities")) <|
      .cons (.required "relationships" (emptyPart "RelationshipCapabilities")) <|
      .cons (.required "comparisons" comparisons) <|
      .cons (.required "explain" (emptyPart "ExplainCapabilities")) <|
      .cons (.required "metrics" (emptyPart "MetricsCapabilities")) <|
      .cons (.required "scalar_types" (members ScalarTypeCapabilities.decoder)) .nil)
    fun (_, _, supportsRelations, _, _, scalarTypes, ()) => { supportsRelations, scalarTypes }

/-- What this agent can do. -/
def agent : Capabilities :=
  { supportsRelations := true
    scalarTypes := ScalarType.all.map fun t => (t.name, .ofType t) }

end Capabilities

/-- The answer to a question for capabilities: with them, the schema of the settings that a
request may carry. -/
def capabilitiesDocument : Json :=
  .obj [("capabilities", Capabilities.agent.json),
    ("config_schemas", .obj [("config_schema", ConnectorConfig.schema), ("other_schemas", .obj [])]),
    ("display_name", .str "SQLite")]

end DataAgent
