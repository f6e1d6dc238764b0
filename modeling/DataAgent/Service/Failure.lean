import DataAgent.Catalog.Introspect
import DataAgent.Compile.Query
import DataAgent.Config.Connector
import DataAgent.Response.Report
import DataAgent.Service.Http

/-!
# Service — Failure

Why a request fails, and the response that says so. Of what goes wrong in the engine the response
says nothing (`Failure.message`).
-/

namespace DataAgent

/-- Why the body of a request is no query. -/
inductive BodyError
  | notJson
  | tooLarge
  | malformed
  | mismatched
  deriving DecidableEq, Repr

namespace BodyError

/-- The wording of an error. -/
def message : BodyError → String
  | .notJson    => "Expected request with `Content-Type: application/json`"
  | .tooLarge   => "Failed to buffer the request body"
  | .malformed  => "Failed to parse the request body as JSON"
  | .mismatched => "Failed to deserialize the JSON body into the target type"

/-- The error of a body that cannot be decoded. -/
def ofDecodeError : DecodeError → BodyError
  | .malformed .. => .malformed
  | .mismatch _   => .mismatched

end BodyError

/-- Why a request fails. -/
inductive Failure
  | header (error : DecodeError)
  | body (error : BodyError)
  | compile (error : CompileError)
  | noDatabase
  | denied (database : String)
  | execution (error : ExecutionError)
  | introspection (error : IntrospectError)
  | engine (error : Sql.EngineError)
  deriving Repr

namespace Failure

/-- The kind of a failure. -/
def kind : Failure → ErrorKind
  | .header _ | .body _ | .compile _ | .noDatabase       => .invalidRequest
  | .denied _                                            => .permissionDenied
  | .execution _ | .introspection _ | .engine _          => .uncaughtError

/-- The status of a kind of failure. -/
def statusOf : ErrorKind → Status
  | .invalidRequest   => .badRequest
  | .permissionDenied => .forbidden
  | .uncaughtError    => .internalError

/-- What a client is told. -/
def message : Failure → String
  | .header e  => ConnectorConfig.errorMessage e
  | .body e    => e.message
  | .compile e => e.message
  | .noDatabase => "no database was selected and no default database is configured"
  | .denied database =>
    "the database '" ++ database ++ "' is not available to this connector"
  | .execution _ | .introspection _ | .engine _ => "internal error"

/-- The response to a request that failed. -/
def response (f : Failure) : HttpResponse :=
  .json (statusOf f.kind) ({ kind := f.kind, message := f.message : ErrorResponse }).json

end Failure

end DataAgent
