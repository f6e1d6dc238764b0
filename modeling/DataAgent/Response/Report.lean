import DataAgent.Json.Record
import DataAgent.Request.Encode

/-!
# Response — Report

The answers that report on a request: an error, or how a query would be run.
-/

namespace DataAgent

open Decode

/-- The kind of an error. -/
inductive ErrorKind
  | invalidRequest
  | permissionDenied
  | uncaughtError
  deriving DecidableEq, Repr

namespace ErrorKind

/-- The name of a kind of error. -/
def name : ErrorKind → String
  | .invalidRequest   => "invalid-request"
  | .permissionDenied => "permission-denied"
  | .uncaughtError    => "uncaught-error"

/-- The kind of a document. -/
def decoder : Decoder ErrorKind :=
  choice ([.invalidRequest, .permissionDenied, .uncaughtError].map fun k => (k.name, k))

end ErrorKind

/-- Why a request failed. -/
structure ErrorResponse where
  kind : ErrorKind
  message : String
  details : Option Json := none
  deriving Repr

namespace ErrorResponse

/-- The error as a document. -/
def json (e : ErrorResponse) : Json :=
  .obj ([("type", .str e.kind.name), ("message", .str e.message)] ++
    Json.memberIfSome "details" id e.details)

/-- The error of a document. -/
def decoder : Decoder ErrorResponse :=
  record "ErrorResponse"
    (.cons (.required "type" ErrorKind.decoder) <|
      .cons (.required "message" string) <|
      .cons (.optional "details" any) .nil)
    fun (kind, message, details, ()) => { kind, message, details }

end ErrorResponse

/-- How a query would be run: the lines of the database's plan, and the statement. -/
structure ExplainResponse where
  lines : List String
  query : String
  deriving DecidableEq, Repr

namespace ExplainResponse

/-- The plan as a document. -/
def json (e : ExplainResponse) : Json :=
  .obj [("lines", .strings e.lines), ("query", .str e.query)]

/-- The plan of a document. -/
def decoder : Decoder ExplainResponse :=
  record "ExplainResponse"
    (.cons (.required "lines" (Decode.list string)) <| .cons (.required "query" string) .nil)
    fun (lines, query, ()) => { lines, query }

end ExplainResponse

end DataAgent
