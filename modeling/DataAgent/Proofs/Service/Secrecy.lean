import DataAgent.Proofs.Service.Stages

/-!
# Proofs — Service — Secrecy

What a failure tells a client. Clients may know the names of the databases, which of them is the default,
and the settings of queries; where the databases are, how they are opened, what is in them and what goes
wrong in the engine is not for them. `Configuration.Alike` says that two configurations are the same as far
as clients may know.

The response to a request that fails is decided by what clients may know (`Agent.verdict`). So two agents
that are alike to clients, with any two engines in any two states, do not differ in it
(`Agent.error_response_eq`).
-/

namespace DataAgent

/-- The configurations are the same as far as clients may know. -/
structure Configuration.Alike (c d : Configuration) : Prop where
  databases : ∀ name, (Members.get? c.databases name).isSome = (Members.get? d.databases name).isSome
  defaultDatabase : c.defaultDatabase = d.defaultDatabase
  querySettings : c.querySettings = d.querySettings

theorem Configuration.Alike.refusal?_eq {c d : Configuration} (h : c.Alike d)
    (requested : Option String) : c.refusal? requested = d.refusal? requested := by
  unfold refusal?
  rw [h.defaultDatabase]
  cases requested <|> d.defaultDatabase with
  | none => rfl
  | some name => simp only [h.databases name]

/-- The response when something goes wrong that is not for clients. -/
def Agent.unexplained : HttpResponse :=
  .json .internalError ({ kind := .uncaughtError, message := "internal error" : ErrorResponse }).json

/-- The response to an errand that goes wrong in the engine. -/
def Errand.failed : Errand → HttpResponse
  | .health                           => Agent.unhealthy
  | .query _ | .explain _ | .schema _ => Agent.unexplained

namespace Agent

variable {σ τ : Type} {a : Agent σ} {b : Agent τ} {r : HttpRequest} {route : Route} {s : AgentState σ}

/-- The response to a request for a route if it fails, which only four of the routes do. -/
def verdict (a : Agent σ) (r : HttpRequest) (route : Route) : Option HttpResponse :=
  match a.errand? r route with
  | none                    => none
  | some (.error f)         => some f.response
  | some (.ok (db, errand)) =>
    some ((a.configuration.refusal? db).elim errand.failed Failure.response)

/-- A document is no error, so that only a failure is one. -/
theorem conclude_of_isError {ε α : Type} {x : Except ε α} {up : ε → Failure} {json : α → Json}
    (hup : ∀ e, (up e).response = unexplained)
    (h : (conclude ((x.mapError up).map fun y => .json .ok (json y))).status.isError = true) :
    conclude ((x.mapError up).map fun y => .json .ok (json y)) = unexplained := by
  cases x with
  | ok y => cases h
  | error e => exact hup e

/-- What goes wrong in the engine is not told. -/
theorem conclude_perform_of_isError {pool : Pool} {errand : Errand} {e : σ}
    (h : (conclude ((a.perform pool errand).run e).1).status.isError = true) :
    conclude ((a.perform pool errand).run e).1 = errand.failed := by
  cases errand with
  | query plan | explain plan => exact conclude_of_isError (fun _ => rfl) h
  | schema filter =>
    rw [run_perform_schema] at h ⊢
    cases hentries : ((a.engine.entries pool).run e).1 with
    | error e => rfl
    | ok entries =>
      rw [hentries] at h
      exact conclude_of_isError (fun _ => rfl) h
  | health =>
    rw [run_perform_health] at h ⊢
    rcases hreport : ((a.engine.healthy pool).run e).1 with _ | _ | _
    · rfl
    · rfl
    · rw [hreport] at h
      cases h

theorem verdict_congr (h : a.configuration.Alike b.configuration) (r : HttpRequest) (route : Route) :
    a.verdict r route = b.verdict r route := by
  have hplan : a.plan r = b.plan r := by
    simp only [plan, h.querySettings]
  have herrand : a.errand? r route = b.errand? r route := by
    cases route with
    | query | explain => simp only [errand?, hplan]
    | _ => rfl
  unfold verdict
  rw [herrand]
  rcases b.errand? r route with _ | f | ⟨db, errand⟩
  · rfl
  · rfl
  · simp only [h.refusal?_eq]

/-- The response to a request that fails is the verdict on it, whatever the engine did. -/
theorem verdict_of_isError (h : ((a.handle r route).run s).1.status.isError = true) :
    a.verdict r route = some ((a.handle r route).run s).1 := by
  rcases herrand : a.errand? r route with _ | f | ⟨db, errand⟩
  · rw [(handle_of_no_errand herrand).1] at h
    cases h
  · rw [handle_of_refused herrand]
    simp only [verdict, herrand]
  · rw [handle_of_errand herrand] at h ⊢
    simp only [verdict, herrand, Option.some.injEq]
    cases hrefusal : a.configuration.refusal? db with
    | none =>
      obtain ⟨pool, hpool⟩ := Configuration.pool_of_no_refusal hrefusal s.pools
      simp only [outcome, carryOut, hpool] at h ⊢
      exact (conclude_perform_of_isError h).symm
    | some f =>
      obtain ⟨-, ⟨-, rfl, hpool⟩ | ⟨name, -, rfl, hpool⟩⟩ :=
        Configuration.pool_of_refusal hrefusal s.pools
      · simp only [outcome, carryOut, hpool] at h ⊢
        cases errand with
        -- Without a database there is nothing to be unhealthy.
        | health => cases h
        | _ => rfl
      · simp only [outcome, carryOut, hpool]
        rfl

/-- **A failure tells nothing of the engine.** Take two agents with the same names of databases, the same
default and the same settings of queries. Their databases may be in different places, opened in different
ways and with other limits of their pools; their engines may do what they like and say of it what they like, and so may their readers of
definitions; and they may be in any two states. If both answer a request with an error, to whatever route
it goes, it is the same response. -/
theorem error_response_eq (a : Agent σ) (b : Agent τ) (h : a.configuration.Alike b.configuration)
    (anySite : Bool) (r : HttpRequest) (s : AgentState σ) (t : AgentState τ)
    (hs : ((a.reply anySite r).run s).1.status.isError = true)
    (ht : ((b.reply anySite r).run t).1.status.isError = true) :
    ((a.reply anySite r).run s).1 = ((b.reply anySite r).run t).1 := by
  rw [run_reply] at hs ht ⊢
  rw [run_reply b]
  cases hroute : r.route? with
  | none => rfl
  | some route =>
    simp only [hroute, Option.elim_some, HttpRequest.status_dress] at hs ht ⊢
    have hverdict := verdict_congr h r route
    rw [verdict_of_isError hs, verdict_of_isError ht] at hverdict
    rw [Option.some.inj hverdict]

end Agent

namespace Pooling

/-- The databases of the shop, in other places. -/
def moved : Configuration :=
  { shop with
    databases :=
      [("stock", { path := "/srv/b.db", readOnly := false, createIfMissing := true }),
       ("orders", { path := "/srv/a.db", readOnly := true, createIfMissing := false })]
    poolSettings := { maxConnections := 1 } }

/-- An agent of the shop whose databases cannot be opened, and whose engine says where they are. -/
def shut : Agent Unit where
  configuration := shop
  engine :=
    { query := fun pool _ _ => pure { result := .error (.reported ("no file " ++ pool.connection.path)) }
      explain := fun pool _ _ =>
        pure { result := .error (.reported ("no file " ++ pool.connection.path)) }
      healthy := fun pool => pure (.error (.reported ("no file " ++ pool.connection.path)))
      entries := fun pool => pure (.error (.reported ("no file " ++ pool.connection.path)))
      connections := fun _ _ => { size := 0, idle := 0 } }
  read := fun _ => none

/-- An agent of the shop elsewhere, whose statements take too long, and which cannot read how its table
was defined. -/
def slow : Agent Nat where
  configuration := moved
  engine :=
    { query := fun _ _ _ => do
        modify (· + 1)
        return { result := .error .interrupted, overdue := true }
      explain := fun _ _ _ => do
        modify (· + 1)
        return { result := .error .interrupted, overdue := true }
      healthy := fun _ => pure (.ok false)
      entries := fun _ => do
        modify (· + 1)
        return .ok [{ name := "ledger", definition := some "CREATE VIEW ledger" }]
      connections := fun n _ => { size := n, idle := n } }
  read := fun _ => none

/-- A request for the schema of the second database. -/
def shelves : HttpRequest :=
  { method := .get
    target := "/schema"
    headers := [("x-hasura-dataconnector-config", .ofString "\x7b\"db\":\"stock\"\x7d")] }

/-- The one agent cannot open the database, the other cannot read its table; clients cannot tell. -/
theorem shut_eq_slow :
    (Agent.connectorConfig shelves).toOption.bind (·.db) = some "stock" ∧
      ((shut.reply false shelves).run { engine := () }).1.status = .internalError ∧
      ((shut.reply false shelves).run { engine := () }).1 =
        ((slow.reply false shelves).run { engine := 7 }).1 := by
  have halike : shop.Alike moved := by
    refine ⟨fun name => ?_, rfl, rfl⟩
    simp [shop, moved, Members.get?, List.isSome_find?, Bool.or_comm]
  have hroute : shelves.route? = some .schema := by cbv
  have hconfig : Agent.connectorConfig shelves = .ok { db := some "stock" } := by cbv
  have herrand {σ : Type} (a : Agent σ) :
      a.errand? shelves .schema = some (.ok (some "stock", .schema {})) := by
    rw [Agent.errand?, hconfig]
    rfl
  have hshut : ((shut.reply false shelves).run { engine := () }).1.status = .internalError := by
    rw [Agent.run_reply, hroute, Option.elim_some, Agent.handle_of_errand (herrand shut),
      HttpRequest.status_dress]
    rfl
  have hslow : ((slow.reply false shelves).run { engine := 7 }).1.status = .internalError := by
    rw [Agent.run_reply, hroute, Option.elim_some, Agent.handle_of_errand (herrand slow),
      HttpRequest.status_dress]
    cbv
  refine ⟨by rw [hconfig]; rfl, hshut, Agent.error_response_eq shut slow halike false shelves _ _ ?_ ?_⟩
  · rw [hshut]
    rfl
  · rw [hslow]
    rfl

end Pooling

end DataAgent
