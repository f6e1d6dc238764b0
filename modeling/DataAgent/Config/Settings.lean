import DataAgent.Json.Record
import DataAgent.Request.Encode

/-!
# Config — Settings

Settings of the connection pools and of the compilation and execution of queries, with their
defaults.
-/

namespace DataAgent

open Decode

/-- Settings of the connection pools, one pool a database. Times are in seconds. -/
structure PoolSettings where
  maxConnections : Nat := 8
  poolTimeout : Nat := 30
  idleTimeout : Option Nat := some 180
  connectionLifetime : Option Nat := some 600
  deriving DecidableEq, Repr

/-- Settings of the compilation and execution of queries. -/
structure QuerySettings where
  /-- Mark each part of a statement with the rule that made it. -/
  debugTags : Bool := false
  /-- How deeply relationship fields may nest. -/
  maxRelationshipDepth : Nat := 16
  /-- How many relationships the path of a column may follow. -/
  maxPathLength : Nat := 16
  /-- How long a statement may run, in seconds. -/
  timeoutSeconds : Option Nat := none
  deriving DecidableEq, Repr

/-- A value that may be absent, written as null. -/
def Json.ofOption {α : Type} (f : α → Json) : Option α → Json
  | none   => .null
  | some a => f a

namespace PoolSettings

/-- The settings as a document. -/
def json (s : PoolSettings) : Json :=
  .obj [("maxConnections", .nat s.maxConnections), ("poolTimeout", .nat s.poolTimeout),
    ("idleTimeout", .ofOption .nat s.idleTimeout),
    ("connectionLifetime", .ofOption .nat s.connectionLifetime)]

/-- The settings of a document; what is missing has its default. -/
def decoder : Decoder PoolSettings :=
  let standard : PoolSettings := {}
  record "PoolSettings"
    (.cons (.withDefault "maxConnections" (unsigned 32) standard.maxConnections) <|
      .cons (.withDefault "poolTimeout" (unsigned 64) standard.poolTimeout) <|
      .cons (.withDefault "idleTimeout" (nullable (unsigned 64)) standard.idleTimeout) <|
      .cons (.withDefault "connectionLifetime" (nullable (unsigned 64))
        standard.connectionLifetime) .nil)
    fun (maxConnections, poolTimeout, idleTimeout, connectionLifetime, ()) =>
      { maxConnections, poolTimeout, idleTimeout, connectionLifetime }

end PoolSettings

namespace QuerySettings

/-- The settings as a document. -/
def json (s : QuerySettings) : Json :=
  .obj ([("debugTags", .bool s.debugTags),
    ("maxRelationshipDepth", .nat s.maxRelationshipDepth),
    ("maxPathLength", .nat s.maxPathLength)] ++
    Json.memberIfSome "timeoutSeconds" .nat s.timeoutSeconds)

/-- The settings of a document; what is missing has its default. -/
def decoder : Decoder QuerySettings :=
  let standard : QuerySettings := {}
  record "QuerySettings"
    (.cons (.withDefault "debugTags" boolean standard.debugTags) <|
      .cons (.withDefault "maxRelationshipDepth" (unsigned 32) standard.maxRelationshipDepth) <|
      .cons (.withDefault "maxPathLength" (unsigned 32) standard.maxPathLength) <|
      .cons (.optional "timeoutSeconds" (unsigned 64)) .nil)
    fun (debugTags, maxRelationshipDepth, maxPathLength, timeoutSeconds, ()) =>
      { debugTags, maxRelationshipDepth, maxPathLength, timeoutSeconds }

end QuerySettings

end DataAgent
