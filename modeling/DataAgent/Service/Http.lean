import DataAgent.Json.Value
import DataAgent.Service.MediaType
import DataAgent.Text.Symbol

/-!
# Service — Http

Requests and responses. The first header of a name counts, and names are the same in any case.
-/

namespace DataAgent

/-- What a request wants of its target. -/
inductive Method
  | get
  | head
  | post
  | options
  | other
  deriving DecidableEq, Repr

/-- The method of a name. -/
def Method.ofString : String → Method
  | "GET"     => .get
  | "HEAD"    => .head
  | "POST"    => .post
  | "OPTIONS" => .options
  | _         => .other

/-- A request. -/
structure HttpRequest where
  method : Method
  target : String
  headers : List (String × Text) := []
  body : Text := []
  deriving DecidableEq, Repr

namespace HttpRequest

/-- The target without what follows the path. -/
def path (r : HttpRequest) : String :=
  String.ofList (r.target.toList.takeWhile fun c => c ≠ '?' && c ≠ '#')

/-- The value of the first header of a name. -/
def header? (r : HttpRequest) (name : String) : Option Text :=
  let lower (s : String) : List Char := s.toList.map Char.toLower
  (r.headers.find? fun (n, _) => lower n == lower name).map Prod.snd

/-- The request says that its body is JSON. -/
def bringsJson (r : HttpRequest) : Bool :=
  ((r.header? "content-type").bind fun text =>
    text.toString?.bind MediaType.ofString?).any MediaType.isJson

end HttpRequest

/-- The outcome of a request. -/
inductive Status
  | ok
  | noContent
  | badRequest
  | forbidden
  | notFound
  | methodNotAllowed
  | internalError
  deriving DecidableEq, Repr

namespace Status

/-- The number of an outcome. -/
def code : Status → Nat
  | .ok               => 200
  | .noContent        => 204
  | .badRequest       => 400
  | .forbidden        => 403
  | .notFound         => 404
  | .methodNotAllowed => 405
  | .internalError    => 500

/-- The outcome is a failure. -/
def isError (s : Status) : Bool := 400 ≤ s.code

end Status

/-- A response. -/
structure HttpResponse where
  status : Status
  headers : List (String × String) := []
  body : String := ""
  deriving DecidableEq, Repr

namespace HttpResponse

/-- A response with a document. -/
def json (status : Status) (document : Json) : HttpResponse :=
  { status, headers := [("content-type", "application/json")], body := document.print }

/-- A response with plain text. -/
def text (body : String) : HttpResponse :=
  { status := .ok, headers := [("content-type", "text/plain; charset=utf-8")], body }

/-- The response with more headers. -/
def withHeaders (r : HttpResponse) (headers : List (String × String)) : HttpResponse :=
  { r with headers := r.headers ++ headers }

/-- The response without its body. -/
def bodiless (r : HttpResponse) : HttpResponse := { r with body := "" }

end HttpResponse

end DataAgent
