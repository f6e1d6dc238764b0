import DataAgent.Service.Agent

/-!
# Service — Route

Which request is answered by what. A target that is no route, or another method than a route's
own, is answered without the agent, and so is every request for the options of a target if
scripts of other sites may use the agent.
-/

namespace DataAgent

/-- A target that the agent knows. -/
inductive Route
  | capabilities
  | schema
  | query
  | explain
  | health
  | metrics
  deriving DecidableEq, Repr

namespace Route

/-- The route of a path. -/
def ofPath? : String → Option Route
  | "/capabilities"  => some .capabilities
  | "/schema"        => some .schema
  | "/query"         => some .query
  | "/query/explain" => some .explain
  | "/health"        => some .health
  | "/metrics"       => some .metrics
  | _                => none

/-- Queries are posted; everything else is got. -/
def posts : Route → Bool
  | .query | .explain                            => true
  | .capabilities | .schema | .health | .metrics => false

/-- The route answers to the method. -/
def admits (route : Route) : Method → Bool
  | .post        => route.posts
  | .get | .head => !route.posts
  | _            => false

/-- The methods that the route answers to. -/
def allowed (route : Route) : String × String :=
  ("allow", if route.posts then "POST" else "GET,HEAD")

end Route

namespace Agent

variable {σ : Type}

/-- The response of a route. -/
def handle (a : Agent σ) (r : HttpRequest) : Route → StateM (AgentState σ) HttpResponse
  | .capabilities => return .json .ok capabilitiesDocument
  | .schema       => respond (answer (a.schema r))
  | .query        => respond (answer (counted (a.query r)))
  | .explain      => respond (answer (counted (a.explain r)))
  | .health       => respond (a.health r)
  | .metrics      => a.metrics

/-- The response to a request. -/
def serve (a : Agent σ) (r : HttpRequest) : StateM (AgentState σ) HttpResponse := do
  match Route.ofPath? r.path with
  | none => return { status := .notFound }
  | some route =>
    if route.admits r.method then
      let response ← a.handle r route
      return if r.method = .head then response.bodiless else response
    else return { status := .methodNotAllowed, headers := [route.allowed] }

/-- The headers that let scripts of any site read a response. -/
def sharingHeaders : List (String × String) :=
  [("access-control-allow-origin", "*"), ("vary", "origin"),
    ("vary", "access-control-request-method"), ("vary", "access-control-request-headers")]

/-- The headers that tell scripts what they may send. -/
def preflightHeaders : List (String × String) :=
  [("access-control-allow-methods", "GET,POST,OPTIONS"),
    ("access-control-allow-headers",
      "x-hasura-dataconnector-config,x-hasura-dataconnector-sourcename")]

/-- The response to a request for the options of a target. -/
def preflight (r : HttpRequest) : HttpResponse :=
  { status := .ok
    headers := sharingHeaders ++ preflightHeaders ++
      ((Route.ofPath? r.path).map Route.allowed).toList }

/-- The response to a request, if scripts of any site may use the agent. -/
def serveAnySite (a : Agent σ) (r : HttpRequest) : StateM (AgentState σ) HttpResponse := do
  if r.method = .options then return preflight r
  return (← a.serve r).withHeaders sharingHeaders

/-- The responses to requests one after the other. -/
def serveAll (a : Agent σ) (anySite : Bool) (requests : List HttpRequest) :
    StateM (AgentState σ) (List HttpResponse) :=
  requests.mapM (if anySite then a.serveAnySite else a.serve)

end Agent

end DataAgent
