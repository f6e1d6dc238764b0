import DataAgent.Execution.Memory
import DataAgent.Proofs.Service.Errands

/-!
# Proofs — Service — Stages

Where a posted query can fail, and that the first failure decides (`Agent.first_fault_decides`). The
stages are the header, the body, the compilation, the selection of a database and the execution, in this
order (`Stage`). Whether a stage fails is said for each stage alone, from what it looks at, whatever the
others do (`Agent.fault`).

An engine can write down what it is asked to do (`Engine.logged`). A request that fails before its
execution asks nothing of the engine, and one that comes so far asks one thing (`Agent.calls`).
-/

namespace DataAgent

/-! ### Stages and their faults -/

/-- Where a posted query can fail. -/
inductive Stage
  | header
  | body
  | compile
  | selection
  | execution
  deriving DecidableEq, Repr

/-- The place of a stage in their order. -/
def Stage.rank : Stage → Nat
  | .header    => 0
  | .body      => 1
  | .compile   => 2
  | .selection => 3
  | .execution => 4

/-- Why a result is none. -/
def failure? {α : Type} : Except Failure α → Option Failure
  | .ok _    => none
  | .error f => some f

/-- Why no database is selected: the one that is asked for, or else the default one, is not configured,
or there is neither. -/
def Configuration.refusal? (c : Configuration) (requested : Option String) : Option Failure :=
  match requested <|> c.defaultDatabase with
  | none      => some .noDatabase
  | some name => if (Members.get? c.databases name).isSome then none else some (.denied name)

/-- The pool of an answer for one. -/
def PoolAnswer.chosen? : PoolAnswer → Option Pool
  | .pool chosen               => some chosen
  | .unselected | .denied _    => none

namespace Agent

variable {σ : Type} (a : Agent σ)

/-- Why the engine fails, once it is asked. -/
def executionFault (r : HttpRequest) (route : Route) (s : AgentState σ) : Option Failure := do
  let errand ← (a.errand? r route).bind Except.toOption
  let pool ← (a.configuration.pool errand.1 s.pools).1.chosen?
  failure? ((a.perform pool errand.2).run s.engine).1

/-- Why a stage fails, if it comes to it and it does. Each stage looks at its own part of the request
only. -/
def fault (r : HttpRequest) (route : Route) (s : AgentState σ) : Stage → Option Failure
  | .header    => failure? (connectorConfig r)
  | .body      => failure? (queryRequest r)
  | .compile   => (queryRequest r).toOption.bind fun request =>
      failure? ((request.compile a.configuration.querySettings).mapError .compile)
  | .selection => (connectorConfig r).toOption.bind fun config => a.configuration.refusal? config.db
  | .execution => a.executionFault r route s

end Agent

/-! ### What is asked of an engine -/

/-- Something that an engine is asked to do on a pool. -/
inductive EngineCall
  | query (pool : Pool) (select : Sql.Select)
  | explain (pool : Pool) (select : Sql.Select)
  | healthy (pool : Pool)
  | entries (pool : Pool)

namespace Engine

variable {σ : Type}

/-- A step that is written down. -/
def noting {α : Type} (call : EngineCall) (step : StateM σ α) : StateM (σ × List EngineCall) α :=
  fun s => ((step.run s.1).1, ((step.run s.1).2, s.2 ++ [call]))

/-- The engine, which writes down what it is asked to do. -/
def logged (engine : Engine σ) : Engine (σ × List EngineCall) where
  query pool limit select := noting (.query pool select) (engine.query pool limit select)
  explain pool limit select := noting (.explain pool select) (engine.explain pool limit select)
  healthy pool := noting (.healthy pool) (engine.healthy pool)
  entries pool := noting (.entries pool) (engine.entries pool)
  connections s pool := engine.connections s.1 pool

end Engine

/-- What an errand asks of an engine. -/
def Errand.call (pool : Pool) : Errand → EngineCall
  | .query plan   => .query pool plan.select
  | .explain plan => .explain pool plan.select
  | .schema _     => .entries pool
  | .health       => .healthy pool

namespace Agent

variable {σ : Type}

/-- The agent with an engine that writes down what it is asked to do. -/
def logged (a : Agent σ) : Agent (σ × List EngineCall) :=
  { configuration := a.configuration, engine := a.engine.logged, read := a.read }

/-- What a request asks of the engine, in order. -/
def calls (a : Agent σ) (anySite : Bool) (r : HttpRequest) (s : AgentState σ) : List EngineCall :=
  ((a.logged.reply anySite r).run
    { engine := (s.engine, []), pools := s.pools, counters := s.counters }).2.engine.2

variable {a : Agent σ} {r : HttpRequest} {route : Route} {s : AgentState σ}

theorem run_logged_perform (pool : Pool) (errand : Errand) (e : σ) (log : List EngineCall) :
    (a.logged.perform pool errand).run (e, log) =
      (((a.perform pool errand).run e).1,
        ((a.perform pool errand).run e).2, log ++ [errand.call pool]) := by
  cases errand <;> rfl

end Agent

/-! ### One stage -/

section

variable {α : Type} {x : Except Failure α} {f : Failure}

theorem failure?_eq_none (h : failure? x = none) : ∃ y, x = .ok y := by
  cases x with
  | ok y => exact ⟨y, rfl⟩
  | error f => cases h

theorem failure?_eq_some (h : failure? x = some f) : x = .error f := by
  cases x with
  | ok y => cases h
  | error f' =>
    cases h
    rfl

end

namespace Configuration

variable {c : Configuration} {requested : Option String} {f : Failure}

/-- A refused selection says why, and makes no pool. -/
theorem pool_of_refusal (h : c.refusal? requested = some f) (pools : Pools) :
    (c.pool requested pools).2 = pools ∧
      ((requested <|> c.defaultDatabase) = none ∧ f = .noDatabase ∧
          (c.pool requested pools).1 = .unselected ∨
        ∃ name, (requested <|> c.defaultDatabase) = some name ∧ f = .denied name ∧
          (c.pool requested pools).1 = .denied name) := by
  unfold refusal? at h
  cases hname : requested <|> c.defaultDatabase with
  | none =>
    have hselect : c.select requested = .none := by simp [select, hname]
    simp only [hname, Option.some.injEq] at h
    simp [Configuration.pool, hselect, h]
  | some name =>
    cases hget : Members.get? c.databases name with
    | none =>
      have hselect : c.select requested = .denied name := by simp [select, hname, hget]
      simp only [hname, hget, Option.isSome_none, Bool.false_eq_true, if_false, Option.some.injEq] at h
      simp [Configuration.pool, hselect, h]
    | some settings => simp [hname, hget] at h

theorem pool_of_no_refusal (h : c.refusal? requested = none) (pools : Pools) :
    ∃ pool, (c.pool requested pools).1 = .pool pool := by
  unfold refusal? at h
  cases hname : requested <|> c.defaultDatabase with
  | none => simp [hname] at h
  | some name =>
    cases hget : Members.get? c.databases name with
    | none => simp [hname, hget] at h
    | some settings =>
      have hselect : c.select requested = .database name settings := by simp [select, hname, hget]
      simp [Configuration.pool, hselect]

end Configuration

/-- What a posted query asks of a database once it is compiled. -/
def Route.errand (route : Route) (plan : Plan) : Errand :=
  if route = .explain then .explain plan else .query plan

namespace Agent

variable {σ : Type} {a : Agent σ} {r : HttpRequest} {route : Route} {s : AgentState σ} {f : Failure}

theorem errand?_of_posts (hposts : route.posts = true) :
    a.errand? r route = some ((a.plan r).map fun p => (p.1.db, route.errand p.2)) := by
  cases route with
  | query | explain => rfl
  | _ => cases hposts

theorem tally_error_of_posts (hposts : route.posts = true) (c : Counters) :
    route.tally c (.error f : Except Failure HttpResponse) = { c with errors := c.errors + 1 } := by
  cases route with
  | query | explain => rfl
  | _ => cases hposts

/-- The three stages before a database is selected are those of the plan. -/
theorem plan_of_fault {stage : Stage} (hstage : stage.rank < Stage.selection.rank)
    (h : a.fault r route s stage = some f)
    (hfirst : ∀ earlier : Stage, earlier.rank < stage.rank → a.fault r route s earlier = none) :
    a.plan r = .error f := by
  have hconfig (hlate : 0 < stage.rank) : ∃ config, connectorConfig r = .ok config :=
    failure?_eq_none (hfirst .header hlate)
  have hrequest (hlate : 1 < stage.rank) : ∃ request, queryRequest r = .ok request :=
    failure?_eq_none (hfirst .body hlate)
  unfold plan
  cases stage with
  | header =>
    rw [failure?_eq_some h]
    rfl
  | body =>
    obtain ⟨config, hc⟩ := hconfig (by decide)
    rw [hc, failure?_eq_some h]
    rfl
  | compile =>
    obtain ⟨config, hc⟩ := hconfig (by decide)
    obtain ⟨request, hr⟩ := hrequest (by decide)
    simp only [fault, hr, Except.toOption, Option.bind_some] at h
    rw [hc, hr]
    show ((request.compile _).mapError _).bind _ = _
    rw [failure?_eq_some h]
    rfl
  | selection | execution => exact absurd hstage (by decide)

theorem exists_plan (h : ∀ earlier : Stage, earlier.rank < Stage.selection.rank →
    a.fault r route s earlier = none) :
    ∃ config plan, connectorConfig r = .ok config ∧ a.plan r = .ok (config, plan) := by
  obtain ⟨config, hc⟩ := failure?_eq_none (h .header (by decide))
  obtain ⟨request, hr⟩ := failure?_eq_none (h .body (by decide))
  have hcompile := h .compile (by decide)
  simp only [fault, hr, Except.toOption, Option.bind_some] at hcompile
  obtain ⟨plan, hp⟩ := failure?_eq_none hcompile
  refine ⟨config, plan, hc, ?_⟩
  unfold Agent.plan
  rw [hc, hr]
  show ((request.compile _).mapError _).bind _ = _
  rw [hp]
  rfl

/-- A query that fails before its execution leaves all as it is, apart from the count of errors. -/
theorem handle_of_early_fault (hposts : route.posts = true) {stage : Stage} (hstage : stage ≠ .execution)
    (h : a.fault r route s stage = some f)
    (hfirst : ∀ earlier : Stage, earlier.rank < stage.rank → a.fault r route s earlier = none) :
    (a.handle r route).run s =
      (f.response, { s with counters := { s.counters with errors := s.counters.errors + 1 } }) := by
  by_cases hselection : stage = .selection
  · subst hselection
    obtain ⟨config, plan, hc, hp⟩ := exists_plan hfirst
    simp only [fault, hc, Except.toOption, Option.bind_some] at h
    have herrand : a.errand? r route = some (.ok (config.db, route.errand plan)) := by
      rw [errand?_of_posts hposts, hp]
      rfl
    have houtcome : a.outcome config.db (route.errand plan) s = (.error f, s) := by
      obtain ⟨hpools, ⟨-, rfl, hanswer⟩ | ⟨name, -, rfl, hanswer⟩⟩ :=
        Configuration.pool_of_refusal h s.pools
      · simp only [outcome, carryOut, hanswer, hpools]
        unfold Route.errand
        split <;> rfl
      · simp only [outcome, carryOut, hanswer, hpools]
    rw [handle_of_errand herrand, houtcome]
    simp only [conclude, AgentState.tallied, tally_error_of_posts hposts]
  · have hearly : stage.rank < Stage.selection.rank := by
      cases stage <;> first | decide | contradiction
    have herrand : a.errand? r route = some (.error f) := by
      rw [errand?_of_posts hposts, plan_of_fault hearly h hfirst]
      rfl
    rw [handle_of_refused herrand]
    simp only [AgentState.tallied, tally_error_of_posts hposts]

/-- A query that comes to its execution asks one thing of the engine, on the pool of its database. -/
theorem handle_of_execution (hposts : route.posts = true)
    (h : ∀ earlier : Stage, earlier.rank < Stage.execution.rank → a.fault r route s earlier = none) :
    ∃ config plan pool, a.plan r = .ok (config, plan) ∧
      (a.configuration.pool config.db s.pools).1 = .pool pool ∧
      a.fault r route s .execution =
        failure? ((a.perform pool (route.errand plan)).run s.engine).1 ∧
      (a.handle r route).run s =
        (conclude ((a.perform pool (route.errand plan)).run s.engine).1,
          { engine := ((a.perform pool (route.errand plan)).run s.engine).2
            pools := (a.configuration.pool config.db s.pools).2
            counters :=
              route.tally s.counters ((a.perform pool (route.errand plan)).run s.engine).1 }) := by
  obtain ⟨config, plan, hc, hp⟩ := exists_plan fun earlier hearlier =>
    h earlier (hearlier.trans (by decide))
  have hselected := h .selection (by decide)
  simp only [fault, hc, Except.toOption, Option.bind_some] at hselected
  obtain ⟨pool, hpool⟩ := Configuration.pool_of_no_refusal hselected s.pools
  have herrand : a.errand? r route = some (.ok (config.db, route.errand plan)) := by
    rw [errand?_of_posts hposts, hp]
    rfl
  refine ⟨config, plan, pool, hp, hpool, ?_, ?_⟩
  · simp [fault, executionFault, herrand, Except.toOption, hpool, PoolAnswer.chosen?]
  · rw [handle_of_errand herrand]
    simp only [outcome, carryOut, hpool, AgentState.tallied]

/-! ### The log -/

/-- Before the execution, no stage depends on the engine. -/
theorem fault_logged {stage : Stage} (h : stage ≠ .execution) (log : List EngineCall) :
    a.logged.fault r route { s with engine := (s.engine, log) } stage = a.fault r route s stage := by
  cases stage with
  | execution => exact absurd rfl h
  | _ => rfl

theorem calls_of_early_fault {anySite : Bool} (hposted : r.posted? = some route) {stage : Stage}
    (hstage : stage ≠ .execution) (h : a.fault r route s stage = some f)
    (hfirst : ∀ earlier : Stage, earlier.rank < stage.rank → a.fault r route s earlier = none) :
    a.calls anySite r s = [] := by
  obtain ⟨-, -, hposts⟩ := HttpRequest.posted?_eq_some hposted
  have hlate (earlier : Stage) (hearlier : earlier.rank < stage.rank) : earlier ≠ .execution := by
    rintro rfl
    cases stage <;> exact absurd hearlier (by decide)
  rw [← fault_logged hstage []] at h
  have hrun := handle_of_early_fault hposts hstage h fun earlier hearlier =>
    (fault_logged (hlate earlier hearlier) []).trans (hfirst earlier hearlier)
  rw [calls, run_reply_posted hposted, hrun]

theorem calls_of_execution {anySite : Bool} (hposted : r.posted? = some route)
    (h : ∀ earlier : Stage, earlier.rank < Stage.execution.rank → a.fault r route s earlier = none) :
    ∃ config plan pool, a.plan r = .ok (config, plan) ∧
      (a.configuration.pool config.db s.pools).1 = .pool pool ∧
      a.calls anySite r s = [(route.errand plan).call pool] := by
  obtain ⟨-, -, hposts⟩ := HttpRequest.posted?_eq_some hposted
  have hlogged (earlier : Stage) (hearlier : earlier.rank < Stage.execution.rank) :
      a.logged.fault r route { s with engine := (s.engine, []) } earlier = none := by
    have hlate : earlier ≠ .execution := by
      rintro rfl
      exact absurd hearlier (by decide)
    exact (fault_logged hlate []).trans (h earlier hearlier)
  obtain ⟨config, plan, pool, hp, hpool, -, hrun⟩ := handle_of_execution hposts hlogged
  refine ⟨config, plan, pool, hp, hpool, ?_⟩
  rw [calls, run_reply_posted hposted, hrun, run_logged_perform]
  rfl

/-! ### The statuses -/

theorem status_of_fault {stage : Stage} (hstage : stage.rank < Stage.selection.rank)
    (h : a.fault r route s stage = some f) : f.response.status = .badRequest := by
  cases stage with
  | header =>
    have hheader : connectorConfig r = .error f := failure?_eq_some h
    unfold connectorConfig at hheader
    cases hof : ConnectorConfig.ofHeader (r.header? ConnectorConfig.headerName) with
    | ok config => simp [hof, Except.mapError] at hheader
    | error e =>
      simp only [hof, Except.mapError, Except.error.injEq] at hheader
      subst hheader
      rfl
  | body =>
    have hbody : queryRequest r = .error f := failure?_eq_some h
    unfold queryRequest at hbody
    split_ifs at hbody
    · cases hof : decodeLeading Request.decoder r.body with
      | ok request => simp [hof, Except.mapError] at hbody
      | error e =>
        simp only [hof, Except.mapError, Except.error.injEq] at hbody
        subst hbody
        rfl
    · cases hbody
      rfl
    · cases hbody
      rfl
  | compile =>
    obtain ⟨request, -, hfailure⟩ := Option.bind_eq_some_iff.1 h
    have hcompile := failure?_eq_some hfailure
    cases hof : request.compile a.configuration.querySettings with
    | ok plan => simp [hof, Except.mapError] at hcompile
    | error e =>
      simp only [hof, Except.mapError, Except.error.injEq] at hcompile
      subst hcompile
      rfl
  | selection | execution => exact absurd hstage (by decide)

theorem status_of_refusal {requested : Option String} (h : a.configuration.refusal? requested = some f) :
    f.response.status =
      if (requested <|> a.configuration.defaultDatabase).isSome then .forbidden else .badRequest := by
  obtain ⟨-, ⟨hname, rfl, -⟩ | ⟨name, hname, rfl, -⟩⟩ := Configuration.pool_of_refusal h {}
  · rw [hname]
    rfl
  · rw [hname]
    rfl

/-- A query that the engine answers is answered with its document. -/
theorem status_of_perform {pool : Pool} {plan : Plan} {e : σ} {response : HttpResponse}
    (h : ((a.perform pool (route.errand plan)).run e).1 = .ok response) : response.status = .ok := by
  unfold Route.errand at h
  split at h
  · obtain ⟨x, -, rfl⟩ := exists_of_map_ok h
    rfl
  · obtain ⟨x, -, rfl⟩ := exists_of_map_ok h
    rfl

end Agent

namespace Pooling

/-- The agent of the shop, over databases in memory. -/
def agent : Agent Storage :=
  { configuration := shop, engine := Storage.engine, read := Definition.read }

/-- A query without a body, for a database that is not one of the shop. -/
def stray : HttpRequest :=
  { method := .post
    target := "/query"
    headers := [("x-hasura-dataconnector-config", .ofString "\x7b\"db\":\"archive\"\x7d")] }

theorem connectorConfig_stray : Agent.connectorConfig stray = .ok { db := some "archive" } := by cbv

theorem queryRequest_stray : Agent.queryRequest stray = .error (.body .notJson) := by
  have hjson : stray.bringsJson = false := by cbv
  rw [Agent.queryRequest, hjson]
  rfl

end Pooling

end DataAgent
