import DataAgent.Proofs.Request.Encoding
import DataAgent.Proofs.Service.Stages

/-!
# Proofs — Service — Accounting

Requests that are handled at the same time. Requests come at any time, at any time one of those under way
takes its next step, and at any time the engine may be in another state (`Traffic.next`); a run is any
sequence of such events (`Traffic.run`). The steps of a request are those of `Progress.step`: it is read,
its call for a pool takes the steps of `PoolCall.step`, the engine does its errand, the result is counted,
and then it is answered. A request that nothing comes between is answered as `Agent.reply` answers it
(`Traffic.run_alone`).

In every state that a run reaches, the counters are what the results that were counted amount to
(`Traffic.Sound`). From this follows that they account for every request once all are answered
(`Traffic.counters_account`).
-/

namespace DataAgent

/-! ### Requests under way -/

/-- How far a request is. -/
inductive Progress
  | received
  /-- A call for a pool is under way. -/
  | selecting (route : Route) (errand : Errand) (call : PoolCall)
  /-- There is a result, which is not counted yet. -/
  | settled (route : Route) (result : Except Failure HttpResponse)
  /-- There is nothing left to count. -/
  | counted (response : HttpResponse)
  | answered (response : HttpResponse)

/-- A request, and how far it is. -/
structure Handler where
  request : HttpRequest
  progress : Progress

/-- The state of an agent, and all requests that have come so far. -/
structure Traffic (σ : Type) where
  state : AgentState σ
  handlers : List Handler := []

/-- What may happen next. -/
inductive TrafficEvent (σ : Type)
  /-- Another request comes. -/
  | arrive (r : HttpRequest)
  /-- The request of that number takes its next step. -/
  | advance (handler : Nat)
  /-- The engine is in another state, for reasons of its own. -/
  | drift (engine : σ)

/-- The event is a step of the request of that number. -/
def TrafficEvent.advances {σ : Type} (i : Nat) : TrafficEvent σ → Bool
  | .advance j             => i == j
  | .arrive _ | .drift _   => false

section

variable {σ : Type} (a : Agent σ) (anySite : Bool)

/-- The first step of a request: it is read. -/
def Progress.start (r : HttpRequest) (route : Route) (s : AgentState σ) : Progress × AgentState σ :=
  match a.errand? r route with
  | some (.ok (db, errand)) => (.selecting route errand (.asked db), s)
  | some (.error f)         => (.settled route (.error f), s)
  | none                    =>
    let done := (a.handle r route).run s
    (.counted (r.dress anySite done.1), done.2)

/-- The next step of a request. -/
def Progress.step (r : HttpRequest) : Progress → AgentState σ → Progress × AgentState σ
  | .received, s => r.route?.elim (.counted (r.unrouted anySite), s) (start a anySite r · s)
  | .selecting route errand (.answered answer), s =>
    let done := a.carryOut answer errand s
    (.settled route done.1, done.2)
  | .selecting route errand call, s =>
    let next := call.step a.configuration s.pools
    (.selecting route errand next.1, { s with pools := next.2 })
  | .settled route result, s =>
    (.counted (r.dress anySite (conclude result)), s.tallied route result)
  | .counted response, s | .answered response, s => (.answered response, s)

namespace Traffic

/-- The state after an event. -/
def next (t : Traffic σ) : TrafficEvent σ → Traffic σ
  | .arrive r => { t with handlers := t.handlers ++ [⟨r, .received⟩] }
  | .drift engine => { t with state := { t.state with engine } }
  | .advance i =>
    t.handlers[i]?.elim t fun h =>
      let done := h.progress.step a anySite h.request t.state
      { state := done.2, handlers := t.handlers.set i { h with progress := done.1 } }

/-- The state after some events. -/
def run (t : Traffic σ) (events : List (TrafficEvent σ)) : Traffic σ := events.foldl (next a anySite) t

end Traffic

end

/-! ### What is counted -/

namespace Handler

/-- The response, once there is nothing left to count. -/
def response? (h : Handler) : Option HttpResponse :=
  match h.progress with
  | .counted response | .answered response    => some response
  | .received | .selecting .. | .settled ..   => none

/-- The response, once it is given. -/
def answer? (h : Handler) : Option HttpResponse :=
  match h.progress with
  | .answered response                                    => some response
  | .received | .selecting .. | .settled .. | .counted _  => none

/-- The request was posted to the route and answered with 200. -/
def succeeded (route : Route) (h : Handler) : Bool :=
  h.request.posted? = some route && h.answer?.any fun response => response.status = .ok

/-- The request was posted to one of the routes for queries and answered with another status than 200. -/
def failed (h : Handler) : Bool :=
  h.request.posted?.isSome && h.answer?.any fun response => response.status ≠ .ok

/-- What the counters have of a request: the route it is posted to, and how it ended. -/
def mark? (h : Handler) : Option (Route × Status) :=
  h.response?.bind fun response => h.request.posted?.map fun route => (route, response.status)

end Handler

namespace Counters

/-- The counters after one more mark. -/
def enter (c : Counters) (route : Route) (status : Status) : Counters :=
  if status ≠ .ok then { c with errors := c.errors + 1 }
  else if route = .query then { c with queries := c.queries + 1 }
  else { c with explains := c.explains + 1 }

/-- What the marks of some requests amount to. -/
def ofHandlers (handlers : List Handler) : Counters where
  queries := handlers.countP fun h => h.mark? = some (.query, .ok)
  explains := handlers.countP fun h => h.mark? = some (.explain, .ok)
  errors := handlers.countP fun h => h.mark?.any fun mark => mark.2 ≠ .ok

end Counters

/-! ### Steps in a row -/

/-- The answer to a call that nothing more comes between, and the pools after it. -/
def PoolCall.finish (c : Configuration) : PoolCall → Pools → PoolAnswer × Pools
  | .asked requested, pools => c.pool requested pools
  | .resolved name connection, pools | .missed name connection, pools =>
    let entered := pools.enter c.poolSettings name connection
    (.pool entered.1, entered.2)
  | .answered answer, pools => (answer, pools)

theorem PoolCall.finish_step (c : Configuration) (call : PoolCall) (pools : Pools) :
    (call.step c pools).1.finish c (call.step c pools).2 = call.finish c pools := by
  cases call with
  | asked requested =>
    cases hselect : c.select requested <;> simp [step, finish, Configuration.pool, hselect]
  | resolved name connection =>
    cases hget : pools.get? name <;> simp [step, finish, Pools.enter, hget]
  | missed name connection => rfl
  | answered answer => rfl

namespace Progress

variable {σ : Type} {a : Agent σ} {anySite : Bool} {r : HttpRequest} {s : AgentState σ}

theorem step_received {route : Route} (hroute : r.route? = some route) :
    received.step a anySite r s = start a anySite r route s := by
  simp only [step, hroute, Option.elim_some]

/-- While its call for a pool is under way, the next step of a request is the next one of the call. -/
theorem step_selecting (a : Agent σ) (anySite : Bool) (r : HttpRequest) (s : AgentState σ) (route : Route)
    (errand : Errand) (call : PoolCall) :
    (∃ answer, call = .answered answer) ∨
      0 < call.due ∧ (selecting route errand call).step a anySite r s =
        (.selecting route errand (call.step a.configuration s.pools).1,
          { s with pools := (call.step a.configuration s.pools).2 }) := by
  cases call with
  | answered answer => exact .inl ⟨answer, rfl⟩
  | _ => exact .inr ⟨by simp [PoolCall.due], rfl⟩

/-- The response to a request that nothing more comes between, and the state after it. -/
def finish (a : Agent σ) (anySite : Bool) (r : HttpRequest) :
    Progress → AgentState σ → HttpResponse × AgentState σ
  | .received, s => (a.reply anySite r).run s
  | .selecting route errand call, s =>
    let called := call.finish a.configuration s.pools
    let done := a.carryOut called.1 errand { s with pools := called.2 }
    (r.dress anySite (conclude done.1), done.2.tallied route done.1)
  | .settled route result, s => (r.dress anySite (conclude result), s.tallied route result)
  | .counted response, s | .answered response, s => (response, s)

theorem finish_start {route : Route} (hroute : r.route? = some route) :
    (start a anySite r route s).1.finish a anySite r (start a anySite r route s).2 =
      (a.reply anySite r).run s := by
  rw [Agent.run_reply, hroute, Option.elim_some]
  rcases herrand : a.errand? r route with _ | f | ⟨db, errand⟩
  · simp only [start, herrand, finish]
  · rw [Agent.handle_of_refused herrand]
    simp only [start, herrand, finish, conclude]
  · rw [Agent.handle_of_errand herrand]
    simp only [start, herrand, finish, PoolCall.finish, Agent.outcome]

/-- A step does not change what comes of the request if nothing comes between. -/
theorem finish_step (p : Progress) (s : AgentState σ) :
    (p.step a anySite r s).1.finish a anySite r (p.step a anySite r s).2 = p.finish a anySite r s := by
  cases p with
  | received =>
    cases hroute : r.route? with
    | none =>
      rw [finish, Agent.run_reply, hroute]
      simp only [step, hroute, Option.elim_none, finish]
    | some route =>
      rw [step_received hroute]
      exact finish_start hroute
  | selecting route errand call =>
    rcases step_selecting a anySite r s route errand call with ⟨answer, rfl⟩ | ⟨-, hstep⟩
    · rfl
    · rw [hstep]
      simp only [finish, PoolCall.finish_step]
  | settled route result => rfl
  | counted response | answered response => rfl

/-- How many steps a request takes at most until it is answered. -/
def due : Progress → Nat
  | .received              => 7
  | .selecting _ _ call    => call.due + 3
  | .settled _ _           => 2
  | .counted _             => 1
  | .answered _            => 0

theorem due_le (p : Progress) : p.due ≤ 7 := by
  rcases p with _ | ⟨_, _, _ | _ | _ | _⟩ | _ | _ | _ <;> simp [due, PoolCall.due]

theorem due_step (p : Progress) (s : AgentState σ) : (p.step a anySite r s).1.due ≤ p.due - 1 := by
  cases p with
  | received =>
    cases hroute : r.route? with
    | none => simp [step, hroute, due]
    | some route =>
      rw [step_received hroute]
      rcases herrand : a.errand? r route with _ | f | ⟨db, errand⟩ <;>
        simp [start, herrand, due, PoolCall.due]
  | selecting route errand call =>
    rcases step_selecting a anySite r s route errand call with ⟨answer, rfl⟩ | ⟨hpos, hstep⟩
    · simp [step, due, PoolCall.due]
    · have hcall := call.due_step a.configuration s.pools
      rw [hstep]
      simp only [due]
      omega
  | settled route result => simp [step, due]
  | counted response | answered response => simp [step, due]

theorem exists_of_due {p : Progress} (h : p.due = 0) : ∃ response, p = .answered response := by
  cases p with
  | answered response => exact ⟨response, rfl⟩
  | _ => simp [due] at h

end Progress

namespace Traffic

variable {σ : Type} {a : Agent σ} {anySite : Bool} {t : Traffic σ} {i : Nat} {h : Handler}

theorem next_advance (hi : t.handlers[i]? = some h) :
    t.next a anySite (.advance i) =
      { state := (h.progress.step a anySite h.request t.state).2
        handlers :=
          t.handlers.set i { h with progress := (h.progress.step a anySite h.request t.state).1 } } := by
  simp only [next, hi, Option.elim_some]

theorem run_append (xs ys : List (TrafficEvent σ)) :
    run a anySite t (xs ++ ys) = run a anySite (run a anySite t xs) ys := List.foldl_append

/-- A request that nothing comes between is answered in seven steps, as it is if it comes alone. -/
theorem run_alone (a : Agent σ) (anySite : Bool) (t : Traffic σ) (r : HttpRequest) :
    run a anySite t (.arrive r :: List.replicate 7 (.advance t.handlers.length)) =
      { state := ((a.reply anySite r).run t.state).2
        handlers := t.handlers ++ [⟨r, .answered ((a.reply anySite r).run t.state).1⟩] } := by
  -- After any number of steps, what comes of the request is the same, and fewer steps are due.
  have hsteps (n : Nat) : ∃ p s,
      run a anySite t (.arrive r :: List.replicate n (.advance t.handlers.length)) =
        { state := s, handlers := t.handlers ++ [⟨r, p⟩] } ∧
      p.finish a anySite r s = (a.reply anySite r).run t.state ∧ p.due ≤ 7 - n := by
    induction n with
    | zero => exact ⟨.received, t.state, rfl, rfl, Nat.le_refl 7⟩
    | succ n ih =>
      obtain ⟨p, s, hrun, hfinish, hdue⟩ := ih
      refine ⟨(p.step a anySite r s).1, (p.step a anySite r s).2, ?_, ?_, ?_⟩
      · have hsplit : (.arrive r :: List.replicate (n + 1) (.advance t.handlers.length) :
            List (TrafficEvent σ)) =
            (.arrive r :: List.replicate n (.advance t.handlers.length)) ++
              [.advance t.handlers.length] := by
          rw [List.replicate_succ', List.cons_append]
        rw [hsplit, run_append, hrun, run, List.foldl_cons, List.foldl_nil,
          next_advance (h := ⟨r, p⟩) (by simp)]
        simp
      · rw [Progress.finish_step, hfinish]
      · have hstep : (p.step a anySite r s).1.due ≤ p.due - 1 := p.due_step s
        omega
  obtain ⟨p, s, hrun, hfinish, hdue⟩ := hsteps 7
  obtain ⟨response, rfl⟩ := Progress.exists_of_due (Nat.le_zero.1 hdue)
  have hstate : (response, s) = (a.reply anySite r).run t.state := hfinish
  rw [hrun, ← hstate]

/-- A request stays, and each of its steps brings it nearer to its answer, whatever the others do. -/
theorem handlers_run (hi : t.handlers[i]? = some h) (events : List (TrafficEvent σ)) :
    ∃ p, (run a anySite t events).handlers[i]? = some ⟨h.request, p⟩ ∧
      p.due ≤ h.progress.due - events.countP (·.advances i) := by
  induction events generalizing t h with
  | nil => exact ⟨h.progress, hi, Nat.le_refl _⟩
  | cons event events ih =>
    have hlength := (List.getElem?_eq_some_iff.1 hi).1
    obtain ⟨p, hp, hdue⟩ : ∃ p, (t.next a anySite event).handlers[i]? = some ⟨h.request, p⟩ ∧
        p.due ≤ h.progress.due - if event.advances i then 1 else 0 := by
      cases event with
      | arrive r =>
        exact ⟨h.progress, by simp [next, List.getElem?_append_left hlength, hi], Nat.le_refl _⟩
      | drift engine => exact ⟨h.progress, hi, Nat.le_refl _⟩
      | advance j =>
        by_cases hj : i = j
        · subst hj
          refine ⟨(h.progress.step a anySite h.request t.state).1, ?_, ?_⟩
          · rw [next_advance hi]
            exact List.getElem?_set_self hlength
          · simpa [TrafficEvent.advances] using h.progress.due_step t.state
        · refine ⟨h.progress, ?_, by simp [TrafficEvent.advances, hj]⟩
          cases hother : t.handlers[j]? with
          | none => simpa [next, hother] using hi
          | some other => simpa [next, hother, List.getElem?_set_ne (Ne.symm hj)] using hi
    obtain ⟨q, hq, hdue'⟩ := ih hp
    refine ⟨q, hq, ?_⟩
    rw [List.countP_cons]
    dsimp only at hdue'
    omega

end Traffic

/-! ### One step and the counters -/

theorem Failure.status_response_ne_ok (f : Failure) : f.response.status ≠ .ok := by
  cases f <;> exact nofun

theorem Route.tally_of_not_posts {α : Type} {route : Route} (h : route.posts = false) (c : Counters)
    (result : Except Failure α) : route.tally c result = c := by
  cases route with
  | query | explain => cases h
  | _ => cases result <;> rfl

/-- A result counts by the status of its response. -/
theorem Route.tally_eq_enter {route : Route} (hposts : route.posts = true) (c : Counters)
    {result : Except Failure HttpResponse}
    (hok : ∀ response, result = .ok response → response.status = .ok) :
    route.tally c result = c.enter route (conclude result).status := by
  cases result with
  | error f =>
    rw [Agent.tally_error_of_posts hposts, conclude, Counters.enter, if_pos f.status_response_ne_ok]
  | ok response =>
    rw [conclude, hok response rfl]
    cases route with
    | query | explain => rfl
    | _ => cases hposts

namespace Agent

variable {σ : Type} {a : Agent σ} {r : HttpRequest} {route : Route} {errand : Errand} {s : AgentState σ}

theorem counters_carryOut (answer : PoolAnswer) :
    (a.carryOut answer errand s).2.counters = s.counters := by
  cases answer <;> rfl

/-- A posted query that succeeds is answered with 200. -/
theorem status_of_carryOut {db : Option String} (herrand : a.errand? r route = some (.ok (db, errand)))
    (hposts : route.posts = true) (answer : PoolAnswer) {response : HttpResponse}
    (h : (a.carryOut answer errand s).1 = .ok response) : response.status = .ok := by
  rw [errand?_of_posts hposts] at herrand
  obtain ⟨p, -, hp⟩ := exists_of_map_ok (Option.some.inj herrand)
  obtain rfl : route.errand p.2 = errand := congrArg Prod.snd hp
  cases answer with
  | unselected =>
    have hnone : (route.errand p.2).unselected = .error .noDatabase := by
      unfold Route.errand
      split <;> rfl
    simp only [carryOut, hnone] at h
    cases h
  | denied name => cases h
  | pool pool =>
    have hdone : ((a.perform pool (route.errand p.2)).run s.engine).1 = .ok response := h
    exact status_of_perform hdone

end Agent

/-- What is known of a request under way: the route that answers it, and that a result of a posted query
is a response with 200. -/
def Handler.Sound {σ : Type} (a : Agent σ) (h : Handler) : Prop :=
  match h.progress with
  | .received | .counted _ | .answered _ => True
  | .selecting route errand _ =>
    h.request.route? = some route ∧ ∃ db, a.errand? h.request route = some (.ok (db, errand))
  | .settled route result =>
    h.request.route? = some route ∧
      (route.posts = true → ∀ response, result = .ok response → response.status = .ok)

namespace Handler

variable {σ : Type} {a : Agent σ} {anySite : Bool} {s : AgentState σ} {h : Handler}

/-- The request after its next step. -/
def later (a : Agent σ) (anySite : Bool) (s : AgentState σ) (h : Handler) : Handler :=
  { h with progress := (h.progress.step a anySite h.request s).1 }

theorem Sound.later (hs : h.Sound a) : (h.later a anySite s).Sound a := by
  obtain ⟨r, p⟩ := h
  cases p with
  | received =>
    cases hroute : r.route? with
    | none => simp [Handler.later, Sound, Progress.step, hroute]
    | some route =>
      simp only [Handler.later, Progress.step_received hroute]
      rcases herrand : a.errand? r route with _ | f | ⟨db, errand⟩ <;>
        simp [Sound, Progress.start, herrand, hroute]
  | selecting route errand call =>
    obtain ⟨hroute, db, herrand⟩ := hs
    rcases Progress.step_selecting a anySite r s route errand call with ⟨answer, rfl⟩ | ⟨-, hstep⟩
    · exact ⟨hroute, fun hposts _ hok => Agent.status_of_carryOut herrand hposts answer hok⟩
    · rw [Handler.later, hstep]
      exact ⟨hroute, db, herrand⟩
  | settled route result => trivial
  | counted response | answered response => trivial

/-- **What a step does to the counters.** It leaves them, and the mark of the request; or it makes the
mark, which there was not, and counts it. Only for a posted query there is one. -/
theorem mark?_later (anySite : Bool) (s : AgentState σ) (hs : h.Sound a) :
    (h.later a anySite s).mark? = h.mark? ∧
        (h.progress.step a anySite h.request s).2.counters = s.counters ∨
      h.mark? = none ∧ ∃ route status, h.request.posted? = some route ∧
        (h.later a anySite s).mark? = some (route, status) ∧
        (h.progress.step a anySite h.request s).2.counters = s.counters.enter route status := by
  obtain ⟨r, p⟩ := h
  cases p with
  | received =>
    refine .inl ?_
    cases hroute : r.route? with
    | none =>
      simp [Handler.later, mark?, response?, Progress.step, hroute,
        HttpRequest.posted?_of_unrouted hroute]
    | some route =>
      simp only [Handler.later, Progress.step_received hroute]
      rcases herrand : a.errand? r route with _ | f | ⟨db, errand⟩
      · obtain ⟨-, hstate, hposts⟩ := Agent.handle_of_no_errand (s := s) herrand
        simp [mark?, response?, Progress.start, herrand, hstate,
          HttpRequest.posted?_of_route? hroute, hposts]
      · simp [mark?, response?, Progress.start, herrand]
      · simp [mark?, response?, Progress.start, herrand]
  | selecting route errand call =>
    refine .inl ?_
    rcases Progress.step_selecting a anySite r s route errand call with ⟨answer, rfl⟩ | ⟨-, hstep⟩
    · exact ⟨rfl, Agent.counters_carryOut answer⟩
    · rw [Handler.later, hstep]
      exact ⟨rfl, rfl⟩
  | settled route result =>
    obtain ⟨hroute, hok⟩ := hs
    have hposted : r.posted? = _ := HttpRequest.posted?_of_route? hroute
    cases hposts : route.posts with
    | false =>
      refine .inl ⟨?_, Route.tally_of_not_posts hposts _ _⟩
      simp [Handler.later, mark?, response?, Progress.step, hposted, hposts]
    | true =>
      rw [hposts, if_pos rfl] at hposted
      refine .inr ⟨rfl, route, (conclude result).status, hposted, ?_, ?_⟩
      · simp [Handler.later, mark?, response?, Progress.step, hposted]
      · exact Route.tally_eq_enter hposts s.counters (hok hposts)
  | counted response | answered response => exact .inl ⟨rfl, rfl⟩

end Handler

/-! ### Every run -/

namespace Counters

variable {handlers : List Handler} {i : Nat} {h h' : Handler}

theorem countP_set (hi : handlers[i]? = some h) (h' : Handler) (p : Handler → Bool) :
    (handlers.set i h').countP p + (if p h then 1 else 0) =
      handlers.countP p + (if p h' then 1 else 0) := by
  obtain ⟨hlength, hget⟩ := List.getElem?_eq_some_iff.1 hi
  have hset := List.countP_set (p := p) (a := h') hlength
  rw [hget] at hset
  by_cases hp : p h = true
  · have hpos : 0 < handlers.countP p := List.countP_pos_iff.2 ⟨h, List.mem_of_getElem? hi, hp⟩
    rw [if_pos hp] at hset ⊢
    omega
  · rw [if_neg hp] at hset ⊢
    omega

theorem ofHandlers_append_received (r : HttpRequest) :
    ofHandlers (handlers ++ [⟨r, .received⟩]) = ofHandlers handlers := by
  simp [ofHandlers, List.countP_append, Handler.mark?, Handler.response?]

theorem ofHandlers_set_of_eq (hi : handlers[i]? = some h) (hmark : h'.mark? = h.mark?) :
    ofHandlers (handlers.set i h') = ofHandlers handlers := by
  have hcount (p : Option (Route × Status) → Bool) :
      (handlers.set i h').countP (fun h => p h.mark?) = handlers.countP fun h => p h.mark? := by
    have hset := countP_set hi h' fun h => p h.mark?
    rw [hmark] at hset
    omega
  simp only [ofHandlers, mk.injEq]
  exact ⟨hcount (fun e => decide (e = some (.query, .ok))),
    hcount (fun e => decide (e = some (.explain, .ok))),
    hcount (fun e => e.any fun mark => decide (mark.2 ≠ .ok))⟩

theorem ofHandlers_set_of_none (hi : handlers[i]? = some h) (hnone : h.mark? = none) {route : Route}
    {status : Status} (hposts : route.posts = true) (hmark : h'.mark? = some (route, status)) :
    ofHandlers (handlers.set i h') = (ofHandlers handlers).enter route status := by
  have hcount (p : Option (Route × Status) → Bool) (hp : p none = false) :
      (handlers.set i h').countP (fun h => p h.mark?) =
        handlers.countP (fun h => p h.mark?) + if p (some (route, status)) then 1 else 0 := by
    have hset := countP_set hi h' fun h => p h.mark?
    simp only [hnone, hmark, hp] at hset
    simpa using hset
  have hqueries := hcount (fun e => decide (e = some (.query, .ok))) rfl
  have hexplains := hcount (fun e => decide (e = some (.explain, .ok))) rfl
  have herrors := hcount (fun e => e.any fun mark => decide (mark.2 ≠ .ok)) rfl
  by_cases hok : status = .ok
  · subst hok
    cases route with
    | query | explain => simp_all [ofHandlers, enter]
    | _ => cases hposts
  · simp_all [ofHandlers, enter]

end Counters

/-- What holds in every state that a run reaches. -/
structure Traffic.Sound {σ : Type} (a : Agent σ) (t : Traffic σ) : Prop where
  handlers : ∀ h ∈ t.handlers, h.Sound a
  counters : t.state.counters = Counters.ofHandlers t.handlers

namespace Traffic

variable {σ : Type} {a : Agent σ} {anySite : Bool} {t : Traffic σ}

theorem Sound.next (ht : t.Sound a) (event : TrafficEvent σ) : (t.next a anySite event).Sound a := by
  cases event with
  | arrive r =>
    refine ⟨fun h hmem => ?_, ?_⟩
    · rcases List.mem_append.1 hmem with hold | hnew
      · exact ht.handlers h hold
      · obtain rfl := List.mem_singleton.1 hnew
        trivial
    · exact ht.counters.trans (Counters.ofHandlers_append_received r).symm
  | drift engine => exact ⟨ht.handlers, ht.counters⟩
  | advance i =>
    cases hi : t.handlers[i]? with
    | none => simpa [Traffic.next, hi] using ht
    | some h =>
      have hsound := ht.handlers h (List.mem_of_getElem? hi)
      rw [next_advance hi]
      -- Only the request that moved can have a new mark, and the counters grow by what it is.
      refine ⟨fun other hother => ?_, ?_⟩
      · rcases List.mem_or_eq_of_mem_set hother with hold | rfl
        · exact ht.handlers other hold
        · exact hsound.later
      · rcases Handler.mark?_later anySite t.state hsound with
          ⟨hmark, hcounters⟩ | ⟨hnone, route, status, hposted, hmark, hcounters⟩
        · exact (hcounters.trans ht.counters).trans (Counters.ofHandlers_set_of_eq hi hmark).symm
        · obtain ⟨-, -, hposts⟩ := HttpRequest.posted?_eq_some hposted
          rw [ht.counters] at hcounters
          exact hcounters.trans (Counters.ofHandlers_set_of_none hi hnone hposts hmark).symm

theorem Sound.run (ht : t.Sound a) (events : List (TrafficEvent σ)) :
    (run a anySite t events).Sound a := by
  induction events generalizing t with
  | nil => exact ht
  | cons event events ih => exact ih (ht.next event)

end Traffic

/-! ### Once all are answered -/

namespace Handler

variable {h : Handler}

theorem mark?_of_answer {response : HttpResponse} (hanswer : h.answer? = some response) :
    h.mark? = h.request.posted?.map fun route => (route, response.status) := by
  obtain ⟨r, p⟩ := h
  cases p with
  | answered given =>
    obtain rfl : given = response := Option.some.inj hanswer
    rfl
  | _ => cases hanswer

theorem posts_of_mark? {route : Route} {status : Status} (hmark : h.mark? = some (route, status)) :
    route.posts = true := by
  obtain ⟨response, -, hposted⟩ := Option.bind_eq_some_iff.1 hmark
  obtain ⟨posted, hsome, hpair⟩ := Option.map_eq_some_iff.1 hposted
  cases hpair
  exact (HttpRequest.posted?_eq_some hsome).2.2

end Handler

/-- Each mark is in one of the three counters. -/
theorem Counters.total_ofHandlers (handlers : List Handler) :
    (ofHandlers handlers).queries + (ofHandlers handlers).explains + (ofHandlers handlers).errors =
      handlers.countP fun h => h.mark?.isSome := by
  induction handlers with
  | nil => rfl
  | cons h handlers ih =>
    simp only [ofHandlers, List.countP_cons, ne_eq, decide_not] at ih ⊢
    rcases hmark : h.mark? with _ | ⟨route, status⟩
    · simpa using ih
    · have hposts := Handler.posts_of_mark? hmark
      by_cases hok : status = .ok
      · subst hok
        cases route with
        | query | explain =>
          simp
          omega
        | _ => cases hposts
      · simp [hok]
        omega

/-- **The counters account for every request.** Whatever requests come, however their steps interleave,
and whatever the engine does: once all are answered, the queries that were counted are the posted queries
that were answered with 200, the explanations likewise, the errors are all of both that were answered
otherwise, and together they are the requests that were posted. At no time does a step of another request
change a counter. A request is answered once it has taken seven steps, whatever the others do in between;
and one that nothing comes between is answered as it is alone. -/
theorem Traffic.counters_account {σ : Type} (a : Agent σ) (anySite : Bool) (engine : σ) (pools : Pools)
    (events : List (TrafficEvent σ)) :
    let t := Traffic.run a anySite { state := { engine, pools } } events
    ((∀ h ∈ t.handlers, h.answer?.isSome) →
      t.state.counters.queries = t.handlers.countP (Handler.succeeded .query) ∧
      t.state.counters.explains = t.handlers.countP (Handler.succeeded .explain) ∧
      t.state.counters.errors = t.handlers.countP Handler.failed ∧
      t.state.counters.queries + t.state.counters.explains + t.state.counters.errors =
        t.handlers.countP fun h => h.request.posted?.isSome) ∧
    (∀ (i : Nat) (h : Handler), t.handlers[i]? = some h → h.request.posted? = none →
      (t.next a anySite (.advance i)).state.counters = t.state.counters) ∧
    (∀ (i : Nat) (h : Handler), t.handlers[i]? = some h → ∀ more : List (TrafficEvent σ),
      7 ≤ more.countP (·.advances i) →
      ∃ response, (Traffic.run a anySite t more).handlers[i]? = some ⟨h.request, .answered response⟩) ∧
    (∀ r : HttpRequest,
      Traffic.run a anySite t (.arrive r :: List.replicate 7 (.advance t.handlers.length)) =
      { state := ((a.reply anySite r).run t.state).2
        handlers := t.handlers ++ [⟨r, .answered ((a.reply anySite r).run t.state).1⟩] }) := by
  intro t
  have ht : t.Sound a := Traffic.Sound.run ⟨fun _ hmem => absurd hmem List.not_mem_nil, rfl⟩ events
  refine ⟨fun hall => ?_, fun i h hi hposted => ?_, fun i h hi more hmore => ?_, run_alone a anySite t⟩
  · have hmark (h : Handler) (hmem : h ∈ t.handlers) : ∃ response, h.answer? = some response ∧
        h.mark? = h.request.posted?.map fun route => (route, response.status) := by
      obtain ⟨response, hanswer⟩ := Option.isSome_iff_exists.1 (hall h hmem)
      exact ⟨response, hanswer, Handler.mark?_of_answer hanswer⟩
    rw [ht.counters, Counters.total_ofHandlers]
    refine ⟨?_, ?_, ?_, ?_⟩
    all_goals
      refine List.countP_congr fun h hmem => ?_
      obtain ⟨response, hanswer, hmark⟩ := hmark h hmem
      cases hposted : h.request.posted? <;>
        simp [Handler.succeeded, Handler.failed, hanswer, hmark, hposted]
  · rw [next_advance hi]
    rcases Handler.mark?_later anySite t.state (ht.handlers h (List.mem_of_getElem? hi)) with
      ⟨-, hcounters⟩ | ⟨-, route, status, hsome, -, -⟩
    · exact hcounters
    · rw [hposted] at hsome
      cases hsome
  · obtain ⟨p, hp, hdue⟩ : ∃ p, (Traffic.run a anySite t more).handlers[i]? = some ⟨h.request, p⟩ ∧
        p.due ≤ h.progress.due - more.countP (·.advances i) := handlers_run hi more
    have hmost := h.progress.due_le
    obtain ⟨response, rfl⟩ := Progress.exists_of_due (p := p) (by omega)
    exact ⟨response, hp⟩

/-- A query is read from a body that is its own text. -/
theorem Agent.queryRequest_print {r : HttpRequest} {request : Request} (hregular : request.Regular)
    (hdepth : request.json.depth ≤ 127) (hjson : r.bringsJson = true)
    (hbody : r.body = .ofString request.json.print) (hsize : r.body.size ≤ bodyLimit) :
    queryRequest r = .ok request := by
  have hencodes := Request.encodes hregular (hdepth.trans (by decide))
  rw [queryRequest, hjson, if_pos rfl, if_pos hsize, hbody, hencodes.decodeLeading_print hdepth]
  rfl

namespace Pooling

/-- An agent of the shop whose engine says how it would run a statement, and runs none. -/
def sketch : Agent Unit where
  configuration := shop
  engine :=
    { query := fun _ _ _ => pure { result := .error .unavailable }
      explain := fun _ _ _ => pure { result := .ok ["SCAN orders"] }
      healthy := fun _ => pure (.ok true)
      entries := fun _ => pure (.error .unavailable)
      connections := fun _ _ => { size := 0, idle := 0 } }
  read := fun _ => none

/-- The totals of all orders. -/
def totals : Request :=
  { table := "orders", query := { fields := some [("total", .column "total")] } }

/-- A request how the query of a body would be run. -/
def asks (body : Text) : HttpRequest :=
  { method := .post
    target := "/query/explain"
    headers := [("content-type", .ofString "application/json")]
    body }

/-- A request whether all is well. -/
def checks : HttpRequest := { method := .get, target := "/health" }

/-- Three requests come and are read. -/
def reads (body : Text) : List (TrafficEvent Unit) :=
  [.arrive (asks body), .arrive stray, .advance 1, .advance 0, .arrive checks, .advance 2]

/-- They take their steps in turns. -/
def turns : List (TrafficEvent Unit) :=
  [.advance 0, .advance 2, .advance 0, .advance 2, .advance 2, .advance 1, .advance 0, .advance 2,
   .drift (), .advance 0, .advance 2, .advance 2, .advance 2, .advance 0, .advance 1, .advance 0]

/-- The state after that. -/
def rush (body : Text) : Traffic Unit :=
  Traffic.run sketch false { state := { engine := () } } (reads body ++ turns)

theorem errand?_asks {body : Text} (hbody : body = .ofString totals.json.print) :
    ∃ plan, sketch.errand? (asks body) .explain = some (.ok (none, .explain plan)) := by
  have hregular : totals.Regular :=
    ⟨by simp [totals], by simp [totals, Query.Regular, fieldsRegular, membersRegular, Field.Regular]⟩
  have hjson : (asks body).bringsJson = true := by cbv
  have hconfig : Agent.connectorConfig (asks body) = .ok {} := by cbv
  have hsize : (asks body).body.size ≤ Agent.bodyLimit := by
    show body.size ≤ 2097152
    rw [hbody]
    cbv
  have hrequest := Agent.queryRequest_print hregular (by decide) hjson hbody hsize
  obtain ⟨plan, hcompile⟩ :
      ∃ plan, totals.compile sketch.configuration.querySettings = .ok plan := ⟨_, rfl⟩
  have hplan : sketch.plan (asks body) = .ok ({}, plan) := by
    simp only [Agent.plan, hconfig, hrequest, hcompile, bind, Except.bind, Except.mapError, pure,
      Except.pure]
  exact ⟨plan, by simp only [Agent.errand?, hplan, Except.map]⟩

theorem errand?_stray : sketch.errand? stray .query = some (.error (.body .notJson)) := by
  simp only [Agent.errand?, Agent.plan, connectorConfig_stray, queryRequest_stray]
  rfl

theorem handlers_rush {body : Text} (hbody : body = .ofString totals.json.print) :
    ∃ x y z, (rush body).handlers =
        [⟨asks body, .answered x⟩, ⟨stray, .answered y⟩, ⟨checks, .answered z⟩] ∧
      x.status = .ok ∧ y.status = .badRequest ∧ z.status = .noContent := by
  obtain ⟨plan, hasks⟩ := errand?_asks hbody
  have hroute : (asks body).route? = some .explain := by cbv
  have hchecks : sketch.errand? checks .health = some (.ok (none, .health)) := by cbv
  have hreads : Traffic.run sketch false { state := { engine := () } } (reads body) =
      { state := { engine := () }
        handlers :=
          [⟨asks body, .selecting .explain (.explain plan) (.asked none)⟩,
           ⟨stray, .settled .query (.error (.body .notJson))⟩,
           ⟨checks, .selecting .health .health (.asked none)⟩] } := by
    simp [reads, Traffic.run, Traffic.next, Progress.step_received hroute,
      Progress.step_received (show stray.route? = some .query by cbv),
      Progress.step_received (show checks.route? = some .health by cbv), Progress.start, hasks,
      errand?_stray, hchecks]
  have hselect : sketch.configuration.select none = .database "orders" ⟨"orders.db", false, true⟩ := rfl
  have hexplain (pool : Pool) (s : AgentState Unit) : sketch.carryOut (.pool pool) (.explain plan) s =
      (.ok (.json .ok (ExplainResponse.json ⟨["SCAN orders"], plan.select.statement.text⟩)), s) := rfl
  have hhealth (pool : Pool) (s : AgentState Unit) : sketch.carryOut (.pool pool) .health s =
      (.ok { status := .noContent }, s) := rfl
  rw [rush, Traffic.run_append, hreads]
  simp [turns, Traffic.run, Traffic.next, Progress.step, PoolCall.step, hselect, hexplain, hhealth,
    Pools.get?, Pools.enter, Members.get?, conclude, HttpResponse.json, Failure.response,
    Failure.statusOf, Failure.kind]

/-- One explanation and one error: the check of health counts for nothing. -/
theorem counters_rush :
    (∀ h ∈ (rush (.ofString totals.json.print)).handlers, h.answer?.isSome) ∧
      (rush (.ofString totals.json.print)).handlers.length = 3 ∧
      (rush (.ofString totals.json.print)).state.counters = { explains := 1, errors := 1 } := by
  -- From here on it does not matter what the text of the body is.
  generalize hbody : Text.ofString totals.json.print = body
  obtain ⟨x, y, z, hhandlers, hx, hy, hz⟩ := handlers_rush hbody.symm
  have hasks : (asks body).posted? = some .explain := by cbv
  have hstray : stray.posted? = some .query := by cbv
  have hchecks : checks.posted? = none := by cbv
  have hanswered : ∀ h ∈ (rush body).handlers, h.answer?.isSome := by
    rw [hhandlers]
    simp [Handler.answer?]
  obtain ⟨hcounters, -⟩ := Traffic.counters_account sketch false () {} (reads body ++ turns)
  obtain ⟨hqueries, hexplains, herrors, -⟩ := hcounters hanswered
  refine ⟨hanswered, by rw [hhandlers]; rfl, ?_⟩
  rw [rush, Counters.mk.injEq .., hqueries, hexplains, herrors]
  rw [← rush, hhandlers]
  simp [Handler.succeeded, Handler.failed, Handler.answer?, hasks, hstray, hchecks, hx, hy]

end Pooling

end DataAgent
