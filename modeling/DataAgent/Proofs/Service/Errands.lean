import DataAgent.Proofs.Execution.Pooling
import DataAgent.Service.Route

/-!
# Proofs — Service — Errands

What a request comes to. Four routes ask something of a database: an errand (`Errand`). The request
says which, and for which database, or it is refused (`Agent.errand?`); then a pool is chosen, and the
engine does the errand on it (`Agent.outcome`); at the end the result is counted (`Route.tally`) and
turned into a response (`conclude`). `Agent.handle_of_refused` and `Agent.handle_of_errand` say that the
routes do this and nothing else, so that what follows does not open their definitions again.
-/

namespace DataAgent

/-- What is asked of a database. -/
inductive Errand
  | query (plan : Plan)
  | explain (plan : Plan)
  | schema (filter : TableFilter)
  | health

/-- What comes of an errand if no database is selected. -/
def Errand.unselected : Errand → Except Failure HttpResponse
  | .health                             => .ok { status := .noContent }
  | .query _ | .explain _ | .schema _   => .error .noDatabase

/-- The counters after a result: queries and explanations count, by how they end. -/
def Route.tally {α : Type} (c : Counters) : Route → Except Failure α → Counters
  | .query, .ok _                                   => { c with queries := c.queries + 1 }
  | .explain, .ok _                                 => { c with explains := c.explains + 1 }
  | .query, .error _ | .explain, .error _           => { c with errors := c.errors + 1 }
  | .capabilities, _ | .schema, _ | .health, _ | .metrics, _ => c

/-- The response that a result is. -/
def conclude : Except Failure HttpResponse → HttpResponse
  | .ok response => response
  | .error f     => f.response

namespace Agent

variable {σ : Type} (a : Agent σ)

/-- The database that a request is for, and the errand; or why the request is refused. The other routes
ask nothing of a database. -/
def errand? (r : HttpRequest) : Route → Option (Except Failure (Option String × Errand))
  | .query   => some ((a.plan r).map fun p => (p.1.db, .query p.2))
  | .explain => some ((a.plan r).map fun p => (p.1.db, .explain p.2))
  | .schema  => some ((connectorConfig r).map fun c =>
      (c.db, .schema { tables := c.tables, includeMeta := c.includeMeta }))
  | .health  => some ((connectorConfig r).map fun c => (c.db, .health))
  | .capabilities | .metrics => none

/-- The response to how a database is. -/
def report : Except Sql.EngineError Bool → HttpResponse
  | .ok true => { status := .noContent }
  | _        => unhealthy

/-- The engine does an errand on a pool. -/
def perform (pool : Pool) : Errand → StateM σ (Except Failure HttpResponse)
  | .query plan => do
    let response ← a.engine.execute pool a.limit plan
    return (response.mapError .execution).map fun x => .json .ok x.json
  | .explain plan => do
    let response ← a.engine.describe pool a.limit plan
    return (response.mapError .execution).map fun x => .json .ok x.json
  | .schema filter => do
    let entries ← a.engine.entries pool
    return (entries.mapError .engine).bind fun entries =>
      ((introspect a.read filter entries).mapError .introspection).map fun tables =>
        .json .ok ({ tables := tables.map TableInfo.schema } : SchemaResponse).json
  | .health => do return .ok (report (← a.engine.healthy pool))

/-- What comes of an errand once the call for a pool is answered, and the state after it. -/
def carryOut (answer : PoolAnswer) (errand : Errand) (s : AgentState σ) :
    Except Failure HttpResponse × AgentState σ :=
  match answer with
  | .unselected  => (errand.unselected, s)
  | .denied name => (.error (.denied name), s)
  | .pool pool   =>
    let done := (a.perform pool errand).run s.engine
    (done.1, { s with engine := done.2 })

/-- What comes of an errand for a database, and the state after it. -/
def outcome (db : Option String) (errand : Errand) (s : AgentState σ) :
    Except Failure HttpResponse × AgentState σ :=
  a.carryOut (a.configuration.pool db s.pools).1 errand
    { s with pools := (a.configuration.pool db s.pools).2 }

end Agent

/-- The state after a result is counted. -/
def AgentState.tallied {σ α : Type} (s : AgentState σ) (route : Route) (result : Except Failure α) :
    AgentState σ :=
  { s with counters := route.tally s.counters result }

/-! ### Running parts of a service -/

namespace Service

variable {σ α β ε : Type} {s : AgentState σ}

/-- A part of a service after another, unless that failed. -/
def andThen (k : α → Service σ β) : Except Failure α × AgentState σ → Except Failure β × AgentState σ
  | (.ok x, s)    => (k x).run.run s
  | (.error f, s) => (.error f, s)

theorem run_bind (x : Service σ α) (k : α → Service σ β) :
    (x >>= k).run.run s = andThen k (x.run.run s) := by
  show StateT.bind x (ExceptT.bindCont k) s = andThen k (x s)
  unfold StateT.bind
  rcases x s with ⟨_ | _, _⟩ <;> rfl

@[simp] theorem andThen_ok (k : α → Service σ β) (x : α) :
    andThen k (.ok x, s) = (k x).run.run s := rfl

@[simp] theorem andThen_error (k : α → Service σ β) (f : Failure) :
    andThen k (.error f, s) = (.error f, s) := rfl

theorem run_ofExcept (f : ε → Failure) (x : Except ε α) :
    (ofExcept f x : Service σ α).run.run s = (x.mapError f, s) := by
  cases x <;> rfl

theorem run_onEngine (step : StateM σ α) :
    (onEngine step).run.run s =
      (.ok (step.run s.engine).1, { s with engine := (step.run s.engine).2 }) := rfl

end Service

/-- The pool that an answer gives, if it is an answer for one. -/
def PoolAnswer.choice : PoolAnswer → Except Failure (Option Pool)
  | .unselected  => .ok none
  | .denied name => .error (.denied name)
  | .pool chosen => .ok (some chosen)

namespace Agent

open Service

variable {σ : Type} {a : Agent σ} {r : HttpRequest} {route : Route} {s : AgentState σ}

theorem run_pool? (db : Option String) :
    (a.pool? db).run.run s =
      ((a.configuration.pool db s.pools).1.choice,
        { s with pools := (a.configuration.pool db s.pools).2 }) := by
  unfold pool?
  rw [run_bind]
  show andThen _ (.ok s, s) = _
  simp only [andThen]
  rw [run_bind]
  show andThen _ (.ok (), _) = _
  simp only [andThen]
  cases (a.configuration.pool db s.pools).1 <;> rfl

theorem run_respond (action : Service σ HttpResponse) :
    (respond action).run s = (conclude (action.run.run s).1, (action.run.run s).2) := by
  unfold respond
  rw [StateT.run_bind]
  rcases action.run.run s with ⟨_ | _, _⟩ <;> rfl

theorem respond_answer_ok {action : Service σ Json} {x : Json} {s' : AgentState σ}
    (h : action.run.run s = (.ok x, s')) : (respond (answer action)).run s = (.json .ok x, s') := by
  rw [run_respond, answer, run_bind, h]
  rfl

theorem respond_answer_error {action : Service σ Json} {f : Failure} {s' : AgentState σ}
    (h : action.run.run s = (.error f, s')) : (respond (answer action)).run s = (f.response, s') := by
  rw [run_respond, answer, run_bind, h]
  rfl

theorem run_counted_ok {action : Service σ Json} {x : Json} {s' : AgentState σ}
    (h : action.run.run s = (.ok x, s')) : (counted action).run.run s = (.ok x, s') := by
  show counted action s = _
  dsimp only [counted, tryCatch, tryCatchThe, MonadExceptOf.tryCatch, ExceptT.tryCatch, ExceptT.mk, bind,
    StateT.bind]
  rw [show action s = _ from h]
  rfl

theorem run_counted_error {action : Service σ Json} {f : Failure} {s' : AgentState σ}
    (h : action.run.run s = (.error f, s')) :
    (counted action).run.run s =
      (.error f, { s' with counters := { s'.counters with errors := s'.counters.errors + 1 } }) := by
  show counted action s = _
  dsimp only [counted, tryCatch, tryCatchThe, MonadExceptOf.tryCatch, ExceptT.tryCatch, ExceptT.mk, bind,
    StateT.bind]
  rw [show action s = _ from h]
  rfl

theorem run_pool (db : Option String) :
    (a.pool db).run.run s =
      ((a.configuration.pool db s.pools).1.choice.bind fun pool? =>
          pool?.elim (.error .noDatabase) .ok,
        { s with pools := (a.configuration.pool db s.pools).2 }) := by
  unfold pool
  rw [run_bind, run_pool?]
  cases (a.configuration.pool db s.pools).1 <;> rfl

theorem run_perform_schema (pool : Pool) (filter : TableFilter) (e : σ) :
    (a.perform pool (.schema filter)).run e =
      ((((a.engine.entries pool).run e).1.mapError .engine).bind fun entries =>
          ((introspect a.read filter entries).mapError .introspection).map fun tables =>
            .json .ok ({ tables := tables.map TableInfo.schema } : SchemaResponse).json,
        ((a.engine.entries pool).run e).2) := rfl

theorem run_perform_health (pool : Pool) (e : σ) :
    (a.perform pool .health).run e =
      (.ok (report ((a.engine.healthy pool).run e).1), ((a.engine.healthy pool).run e).2) := rfl

theorem exists_of_map_ok {ε α β : Type} {x : Except ε α} {f : α → β} {b : β} (h : x.map f = .ok b) :
    ∃ a, x = .ok a ∧ f a = b := by
  cases x with
  | error e => cases h
  | ok a => exact ⟨a, rfl, Except.ok.inj h⟩

theorem handle_of_refused {f : Failure} (h : a.errand? r route = some (.error f)) :
    (a.handle r route).run s =
      (f.response, s.tallied route (.error f : Except Failure HttpResponse)) := by
  cases route with
  | query | explain =>
    have hplan : a.plan r = .error f := by
      cases hp : a.plan r <;> simp_all [errand?, Except.map]
    simp only [handle, respond, answer, counted, query, explain, hplan]
    rfl
  | schema | health =>
    have hconfig : connectorConfig r = .error f := by
      cases hc : connectorConfig r <;> simp_all [errand?, Except.map]
    simp only [handle, respond, answer, schema, health, hconfig]
    rfl
  | capabilities | metrics => cases h

/-- A query or an explanation, once it is compiled. -/
def posted {α : Type} (a : Agent σ) (db : Option String)
    (step : Pool → StateM σ (Except ExecutionError α)) (up : Counters → Counters) (json : α → Json) : Service σ Json := do
  let pool ← a.pool db
  let x ← ofExcept .execution (← onEngine (step pool))
  count up
  return json x

section

variable {α : Type} {db : Option String} {step : Pool → StateM σ (Except ExecutionError α)}
  {up : Counters → Counters} {json : α → Json} {errand : Errand}

theorem run_posted_of_pool {pool : Pool} (h : (a.configuration.pool db s.pools).1 = .pool pool) :
    (a.posted db step up json).run.run s =
      andThen (fun x => count up >>= fun _ => pure (json x))
        (((step pool).run s.engine).1.mapError .execution,
          { s with
            pools := (a.configuration.pool db s.pools).2
            engine := ((step pool).run s.engine).2 }) := by
  rw [posted, run_bind, run_pool, h]
  simp only [PoolAnswer.choice, Except.bind, Option.elim, andThen_ok, run_bind, run_onEngine,
    run_ofExcept]

theorem run_posted_of_error {f : Failure} {s' : AgentState σ}
    (h : (a.pool db).run.run s = (.error f, s')) : (a.posted db step up json).run.run s = (.error f, s') := by
  rw [posted, run_bind, h]
  rfl

/-- Queries and explanations count after the engine, or in place of it. -/
theorem respond_posted
    (hperform : ∀ pool, a.perform pool errand = do
      return ((← step pool).mapError .execution).map fun x => .json .ok (json x))
    (hunselected : errand.unselected = .error .noDatabase)
    (hok : ∀ c (x : HttpResponse), route.tally c (.ok x) = up c)
    (herror : ∀ c f, route.tally c (.error f : Except Failure HttpResponse) =
      { c with errors := c.errors + 1 }) :
    (respond (answer (counted (a.posted db step up json)))).run s =
      (conclude (a.outcome db errand s).1,
        (a.outcome db errand s).2.tallied route (a.outcome db errand s).1) := by
  unfold outcome carryOut
  cases hanswer : (a.configuration.pool db s.pools).1 with
  | unselected =>
    have hpool : (a.pool db).run.run s = _ := run_pool db
    rw [hanswer] at hpool
    rw [respond_answer_error (run_counted_error (run_posted_of_error hpool))]
    simp only [AgentState.tallied, herror, hunselected, conclude]
  | denied name =>
    have hpool : (a.pool db).run.run s = _ := run_pool db
    rw [hanswer] at hpool
    rw [respond_answer_error (run_counted_error (run_posted_of_error hpool))]
    simp only [AgentState.tallied, herror, conclude]
  | pool pool =>
    have hrun : (a.posted db step up json).run.run s = _ := run_posted_of_pool hanswer
    have hdone : (a.perform pool errand).run s.engine =
        ((((step pool).run s.engine).1.mapError .execution).map fun x => .json .ok (json x),
          ((step pool).run s.engine).2) := by
      rw [hperform]
      rfl
    rcases hstep : (step pool).run s.engine with ⟨e | x, engine⟩
    · rw [hstep] at hrun hdone
      rw [respond_answer_error (run_counted_error hrun)]
      simp only [AgentState.tallied, hdone, Except.mapError, Except.map, herror, conclude]
    · rw [hstep] at hrun hdone
      rw [respond_answer_ok (run_counted_ok hrun)]
      simp only [AgentState.tallied, hdone, Except.mapError, Except.map, hok, conclude]

end

theorem handle_of_errand {db : Option String} {errand : Errand}
    (h : a.errand? r route = some (.ok (db, errand))) :
    (a.handle r route).run s =
      (conclude (a.outcome db errand s).1,
        (a.outcome db errand s).2.tallied route (a.outcome db errand s).1) := by
  cases route with
  | query =>
    obtain ⟨⟨config, plan⟩, hp, hpair⟩ := exists_of_map_ok (Option.some.inj h)
    cases hpair
    have hquery : a.query r = a.posted config.db (fun pool => a.engine.execute pool a.limit plan)
        (fun c => { c with queries := c.queries + 1 }) QueryResponse.json := by
      simp only [query, hp]
      rfl
    rw [handle, hquery]
    exact respond_posted (fun _ => rfl) rfl (fun _ _ => rfl) (fun _ _ => rfl)
  | explain =>
    obtain ⟨⟨config, plan⟩, hp, hpair⟩ := exists_of_map_ok (Option.some.inj h)
    cases hpair
    have hexplain : a.explain r = a.posted config.db (fun pool => a.engine.describe pool a.limit plan)
        (fun c => { c with explains := c.explains + 1 }) ExplainResponse.json := by
      simp only [explain, hp]
      rfl
    rw [handle, hexplain]
    exact respond_posted (fun _ => rfl) rfl (fun _ _ => rfl) (fun _ _ => rfl)
  | schema =>
    obtain ⟨config, hc, hpair⟩ := exists_of_map_ok (Option.some.inj h)
    cases hpair
    rw [handle, run_respond, answer, run_bind, schema, hc]
    simp only [run_bind, run_ofExcept, Except.mapError, andThen_ok, run_pool, outcome, carryOut]
    cases hanswer : (a.configuration.pool config.db s.pools).1 with
    | unselected | denied name => rfl
    | pool pool =>
      simp only [PoolAnswer.choice, Except.bind, Option.elim, andThen_ok, run_bind, run_onEngine,
        run_ofExcept]
      rw [run_perform_schema]
      rcases (a.engine.entries pool).run s.engine with ⟨_ | entries, engine⟩
      · rfl
      · simp only [Except.mapError, Except.bind, andThen_ok, run_bind, run_ofExcept]
        cases introspect a.read { tables := config.tables, includeMeta := config.includeMeta } entries <;>
          rfl
  | health =>
    obtain ⟨config, hc, hpair⟩ := exists_of_map_ok (Option.some.inj h)
    cases hpair
    rw [handle, run_respond, health, hc]
    simp only [run_bind, run_ofExcept, Except.mapError, andThen_ok, run_pool?, outcome, carryOut]
    cases hanswer : (a.configuration.pool config.db s.pools).1 with
    | unselected | denied name => rfl
    | pool pool =>
      simp only [PoolAnswer.choice, andThen_ok, run_bind, run_onEngine]
      rw [run_perform_health]
      rcases (a.engine.healthy pool).run s.engine with ⟨_ | _ | _, engine⟩ <;> rfl
  | capabilities | metrics => cases h

/-- The two routes without an errand change nothing and do not fail. -/
theorem handle_of_no_errand (h : a.errand? r route = none) :
    ((a.handle r route).run s).1.status = .ok ∧ ((a.handle r route).run s).2 = s ∧
      route.posts = false := by
  cases route with
  | capabilities | metrics => exact ⟨rfl, rfl, rfl⟩
  | _ => cases h

/-! ### Whole requests -/

/-- The response to a request, whether or not scripts of any site may use the agent. -/
def reply (a : Agent σ) (anySite : Bool) (r : HttpRequest) : StateM (AgentState σ) HttpResponse :=
  if anySite then a.serveAnySite r else a.serve r

end Agent

/-- The response with the headers for scripts, if there are to be any. -/
def HttpResponse.shared (anySite : Bool) (r : HttpResponse) : HttpResponse :=
  if anySite then r.withHeaders Agent.sharingHeaders else r

@[simp] theorem HttpResponse.status_shared (anySite : Bool) (r : HttpResponse) :
    (r.shared anySite).status = r.status := by
  cases anySite <;> rfl

namespace HttpRequest

/-- The route that answers a request, if one does. -/
def route? (r : HttpRequest) : Option Route :=
  (Route.ofPath? r.path).filter fun route => route.admits r.method

/-- The route that a request is posted to, if it is one of those for queries. -/
def posted? (r : HttpRequest) : Option Route :=
  if r.method = .post then (Route.ofPath? r.path).filter Route.posts else none

/-- The response to a request that no route answers. -/
def unrouted (r : HttpRequest) (anySite : Bool) : HttpResponse :=
  if anySite && r.method = .options then Agent.preflight r
  else HttpResponse.shared anySite <|
    (Route.ofPath? r.path).elim { status := .notFound } fun route =>
      { status := .methodNotAllowed, headers := [route.allowed] }

/-- The response of a route, as it is sent. -/
def dress (r : HttpRequest) (anySite : Bool) (response : HttpResponse) : HttpResponse :=
  (if r.method = .head then response.bodiless else response).shared anySite

variable {r : HttpRequest} {route : Route}

@[simp] theorem status_dress (anySite : Bool) (response : HttpResponse) :
    (r.dress anySite response).status = response.status := by
  unfold dress
  split <;> simp [HttpResponse.bodiless]

theorem posted?_eq_some (h : r.posted? = some route) :
    r.method = .post ∧ r.route? = some route ∧ route.posts = true := by
  unfold posted? at h
  split at h
  · rename_i hmethod
    obtain ⟨hpath, hposts⟩ := Option.filter_eq_some_iff.1 h
    refine ⟨hmethod, Option.filter_eq_some_iff.2 ⟨hpath, ?_⟩, hposts⟩
    rw [hmethod]
    exact hposts
  · cases h

theorem posted?_of_unrouted (h : r.route? = none) : r.posted? = none := by
  rcases hposted : r.posted? with _ | route
  · rfl
  · obtain ⟨-, hroute, -⟩ := posted?_eq_some hposted
    rw [h] at hroute
    cases hroute

theorem posted?_of_route? (h : r.route? = some route) :
    r.posted? = if route.posts then some route else none := by
  obtain ⟨hpath, hadmits⟩ := Option.filter_eq_some_iff.1 h
  cases hmethod : r.method <;> cases hposts : route.posts <;>
    simp_all [posted?, Route.admits]

end HttpRequest

namespace Agent

variable {σ : Type} {a : Agent σ} {r : HttpRequest} {route : Route} {s : AgentState σ}

theorem run_serve (a : Agent σ) (r : HttpRequest) (s : AgentState σ) :
    (a.serve r).run s =
      r.route?.elim (r.unrouted false, s) fun route =>
        (r.dress false ((a.handle r route).run s).1, ((a.handle r route).run s).2) := by
  cases hpath : Route.ofPath? r.path with
  | none =>
    have hroute : r.route? = none := by simp [HttpRequest.route?, hpath]
    simp only [serve, hroute, HttpRequest.unrouted, hpath]
    rfl
  | some route =>
    by_cases hadmits : route.admits r.method
    · have hroute : r.route? = some route := by simp [HttpRequest.route?, hpath, hadmits]
      simp only [serve, hpath, hadmits, hroute, if_true]
      rfl
    · have hroute : r.route? = none := by simp [HttpRequest.route?, hpath, hadmits]
      simp only [serve, hpath, hadmits, hroute, HttpRequest.unrouted]
      rfl

/-- A request is answered by its route, or without the agent if it has none. -/
theorem run_reply (a : Agent σ) (anySite : Bool) (r : HttpRequest) (s : AgentState σ) :
    (a.reply anySite r).run s =
      r.route?.elim (r.unrouted anySite, s) fun route =>
        (r.dress anySite ((a.handle r route).run s).1, ((a.handle r route).run s).2) := by
  cases anySite with
  | false => exact run_serve a r s
  | true =>
    show (a.serveAnySite r).run s = _
    by_cases hoptions : r.method = .options
    · have hroute : r.route? = none := by simp [HttpRequest.route?, hoptions, Route.admits]
      simp only [serveAnySite, hoptions, hroute, HttpRequest.unrouted]
      rfl
    · simp only [serveAnySite, hoptions, if_false, StateT.run_bind, run_serve]
      cases r.route? with
      | none =>
        simp only [Option.elim_none, HttpRequest.unrouted, hoptions, decide_false, Bool.and_false]
        rfl
      | some route => rfl

/-- A query that is posted is answered with the response of its route. -/
theorem run_reply_posted (h : r.posted? = some route) (anySite : Bool) :
    (a.reply anySite r).run s =
      (((a.handle r route).run s).1.shared anySite, ((a.handle r route).run s).2) := by
  obtain ⟨hmethod, hroute, -⟩ := HttpRequest.posted?_eq_some h
  rw [run_reply, hroute]
  simp [HttpRequest.dress, hmethod]

end Agent

end DataAgent
