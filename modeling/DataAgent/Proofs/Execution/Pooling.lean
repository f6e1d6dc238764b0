import DataAgent.Execution.Pool
import DataAgent.Proofs.Config.Resolution
import Mathlib

/-!
# Proofs — Execution — Pooling

Calls for pools that interleave. Calls come at any time, and at any time one of those under way takes
its next step (`Pooling.next`); a run is any sequence of such events (`Pooling.run`). The steps of a
call are those of `PoolCall.step`: between the look at the pools and the entry of a new one, other calls
may have entered theirs.

What holds in all states that runs reach (`Pooling.Sound`) is kept by every event: no step changes an
entry, and a call that is past its first step knows the database it was resolved to. From this follows
that each database has one pool, whatever the order of the steps (`Pooling.one_pool_per_database`).
-/

namespace DataAgent

/-! ### Members by key -/

namespace Members

variable {α : Type}

theorem get?_append_singleton (members : Members α) (key name : String) (value : α) :
    get? (members ++ [(key, value)]) name =
      (get? members name).or (if key = name then some value else none) := by
  unfold get?
  rw [List.find?_append, Option.map_or]
  by_cases h : key = name
  · simp [h]
  · simp [h]

end Members

/-! ### Interleaved calls -/

/-- A call for a pool: what it asks for, and how far it is. -/
structure Caller where
  requested : Option String
  progress : PoolCall
  deriving DecidableEq, Repr

/-- The pools, and all calls for one that have come so far. -/
structure Pooling where
  pools : Pools := {}
  callers : List Caller := []
  deriving DecidableEq, Repr

/-- What may happen next. -/
inductive PoolEvent
  /-- Another call comes. -/
  | arrive (requested : Option String)
  /-- The call of that number takes its next step. -/
  | advance (caller : Nat)
  deriving DecidableEq, Repr

namespace Pooling

variable (c : Configuration)

/-- The state after an event. -/
def next (s : Pooling) : PoolEvent → Pooling
  | .arrive requested => { s with callers := s.callers ++ [⟨requested, .asked requested⟩] }
  | .advance i =>
    s.callers[i]?.elim s fun caller =>
      { pools := (caller.progress.step c s.pools).2
        callers := s.callers.set i { caller with progress := (caller.progress.step c s.pools).1 } }

/-- The state after some events. -/
def run (s : Pooling) (events : List PoolEvent) : Pooling := events.foldl (next c) s

/-- The pools that a step of a call makes: one if the call has the lock and finds none. -/
def openedBy (pools : Pools) : PoolCall → List (String × Pool)
  | .missed name connection =>
    if (pools.get? name).isNone then
      [(name, { serial := pools.made, connection, limits := c.poolSettings })]
    else []
  | _ => []

/-- The pools that some events make, in order. -/
def opened (s : Pooling) : List PoolEvent → List (String × Pool)
  | [] => []
  | .arrive requested :: events => opened (s.next c (.arrive requested)) events
  | .advance i :: events =>
    (s.callers[i]?.elim [] fun caller => openedBy c s.pools caller.progress) ++
      opened (s.next c (.advance i)) events

end Pooling

/-- The answer to a call is what the configuration decides: for a database it is the pool under the
name of the database. -/
def Configuration.Decides (c : Configuration) (pools : Pools) (requested : Option String)
    (answer : PoolAnswer) : Prop :=
  match c.select requested with
  | .none            => answer = .unselected
  | .denied name     => answer = .denied name
  | .database name _ => ∃ pool, answer = .pool pool ∧ pools.get? name = some pool

/-! ### One step of a call -/

namespace Pooling

variable {c : Configuration} {pools : Pools} {call : PoolCall}

theorem openedBy_cases (c : Configuration) (pools : Pools) (call : PoolCall) :
    openedBy c pools call = [] ∨
      ∃ name connection, call = .missed name connection ∧ pools.get? name = none ∧
        openedBy c pools call =
          [(name, { serial := pools.made, connection, limits := c.poolSettings })] := by
  cases call with
  | missed name connection =>
    cases hget : pools.get? name with
    | some pool => exact .inl (by simp [openedBy, hget])
    | none => exact .inr ⟨name, connection, rfl, hget, by simp [openedBy, hget]⟩
  | _ => exact .inl rfl

/-- All that a step does to the pools is to enter those it makes. -/
theorem step_pools (c : Configuration) (pools : Pools) (call : PoolCall) :
    (call.step c pools).2 =
      { entries := pools.entries ++ openedBy c pools call
        made := pools.made + (openedBy c pools call).length } := by
  cases call with
  | asked requested =>
    cases hselect : c.select requested <;> simp [PoolCall.step, openedBy, hselect]
  | resolved name connection =>
    cases hget : pools.get? name <;> simp [PoolCall.step, openedBy, hget]
  | missed name connection =>
    cases hget : pools.get? name <;> simp [PoolCall.step, Pools.enter, openedBy, hget]
  | answered answer => simp [PoolCall.step, openedBy]

/-- An entry stays as it is. -/
theorem get?_step {name : String} {pool : Pool} (h : pools.get? name = some pool) :
    (call.step c pools).2.get? name = some pool := by
  rw [step_pools]
  rcases openedBy_cases c pools call with hopened | ⟨other, connection, -, -, hopened⟩
  · rw [hopened]
    simpa [Pools.get?] using h
  · rw [hopened]
    have hkept := Members.get?_append_singleton pools.entries other name
      { serial := pools.made, connection, limits := c.poolSettings }
    rw [show Members.get? pools.entries name = some pool from h] at hkept
    exact hkept

end Pooling

/-- A database has at most one pool, which was made from its settings, and no two pools are the same. -/
structure Pools.Sound (c : Configuration) (pools : Pools) : Prop where
  keys : (pools.entries.map Prod.fst).Nodup
  serials : pools.entries.map (fun entry => entry.2.serial) = List.range pools.made
  configured : ∀ entry ∈ pools.entries,
    Members.get? c.databases entry.1 = some entry.2.connection ∧ entry.2.limits = c.poolSettings

/-- What a call knows: past its first step, the database that it was resolved to, and at its end the
answer that the configuration decides. -/
def Caller.Sound (c : Configuration) (pools : Pools) (caller : Caller) : Prop :=
  match caller.progress with
  | .asked requested => requested = caller.requested
  | .resolved name connection | .missed name connection =>
    c.select caller.requested = .database name connection
  | .answered answer => c.Decides pools caller.requested answer

section

variable {c : Configuration} {pools pools' : Pools} {caller : Caller}

theorem Pools.Sound.step {caller : Caller} (hp : pools.Sound c) (hc : caller.Sound c pools) :
    (caller.progress.step c pools).2.Sound c := by
  rw [Pooling.step_pools]
  rcases Pooling.openedBy_cases c pools caller.progress with
    hopened | ⟨name, connection, hmissed, hnone, hopened⟩
  · simpa [hopened] using hp
  · have hselect : c.select caller.requested = .database name connection := by
      simpa [Caller.Sound, hmissed] using hc
    rw [hopened]
    refine ⟨?_, ?_, ?_⟩
    · rw [List.map_append]
      exact hp.keys.append (List.nodup_singleton name)
        (List.disjoint_singleton.2 (Members.get?_eq_none_iff.1 hnone))
    · simp [hp.serials, List.range_succ]
    · intro entry hentry
      rcases List.mem_append.1 hentry with hold | hnew
      · exact hp.configured entry hold
      · obtain rfl := List.mem_singleton.1 hnew
        exact ⟨(Configuration.select_eq_database_iff.1 hselect).2, rfl⟩

/-- Under the lock a call gets the pool that is under the name of the database from then on. -/
theorem Pools.get?_enter (limits : PoolSettings) (name : String) (connection : ConnectionSettings)
    (pools : Pools) :
    (pools.enter limits name connection).2.get? name =
      some (pools.enter limits name connection).1 := by
  cases hget : pools.get? name with
  | some pool => simp [Pools.enter, hget]
  | none =>
    have hnone : Members.get? pools.entries name = none := hget
    simp [Pools.enter, Pools.get?, Members.get?_append_singleton, hnone]

/-- What a call knows stays true while entries stay. -/
theorem Caller.Sound.mono (h : caller.Sound c pools)
    (hkept : ∀ name pool, pools.get? name = some pool → pools'.get? name = some pool) :
    caller.Sound c pools' := by
  obtain ⟨requested, progress⟩ := caller
  cases progress with
  | answered answer =>
    simp only [Caller.Sound, Configuration.Decides] at h ⊢
    cases hselect : c.select requested with
    | database name connection =>
      simp only [hselect] at h
      obtain ⟨pool, hanswer, hget⟩ := h
      exact ⟨pool, hanswer, hkept name pool hget⟩
    | _ => simpa [hselect] using h
  | _ => exact h

theorem Caller.Sound.step (h : caller.Sound c pools) :
    Caller.Sound c (caller.progress.step c pools).2
      { caller with progress := (caller.progress.step c pools).1 } := by
  obtain ⟨requested, progress⟩ := caller
  cases progress with
  | asked asked =>
    obtain rfl : asked = requested := h
    cases hselect : c.select asked <;>
      simp [Caller.Sound, PoolCall.step, Configuration.Decides, hselect]
  | resolved name connection =>
    have hselect : c.select requested = .database name connection := h
    cases hget : pools.get? name <;>
      simp [Caller.Sound, PoolCall.step, Configuration.Decides, hselect, hget]
  | missed name connection =>
    have hselect : c.select requested = .database name connection := h
    simp [Caller.Sound, PoolCall.step, Configuration.Decides, hselect, Pools.get?_enter]
  | answered answer => exact h

end

/-! ### Every run -/

/-- What holds in every state that a run reaches. -/
structure Pooling.Sound (c : Configuration) (s : Pooling) : Prop where
  pools : s.pools.Sound c
  callers : ∀ caller ∈ s.callers, caller.Sound c s.pools

namespace Pooling

variable {c : Configuration} {s : Pooling}

theorem sound_empty (c : Configuration) : Sound c {} where
  pools := ⟨List.nodup_nil, rfl, fun _ h => absurd h List.not_mem_nil⟩
  callers _ h := absurd h List.not_mem_nil

theorem Sound.next (hs : s.Sound c) (event : PoolEvent) : (s.next c event).Sound c := by
  cases event with
  | arrive requested =>
    refine ⟨hs.pools, fun caller hcaller => ?_⟩
    rcases List.mem_append.1 hcaller with hold | hnew
    · exact hs.callers caller hold
    · obtain rfl := List.mem_singleton.1 hnew
      exact rfl
  | advance i =>
    cases hi : s.callers[i]? with
    | none => simpa [Pooling.next, hi] using hs
    | some caller =>
      have hcaller := hs.callers caller (List.mem_of_getElem? hi)
      simp only [Pooling.next, hi, Option.elim_some]
      refine ⟨hs.pools.step hcaller, fun other hother => ?_⟩
      -- The call that moved knows more; to the others the pools have only grown.
      rcases List.mem_or_eq_of_mem_set hother with hold | rfl
      · exact (hs.callers other hold).mono fun _ _ => get?_step
      · exact hcaller.step

theorem Sound.run (hs : s.Sound c) (events : List PoolEvent) : (run c s events).Sound c := by
  induction events generalizing s with
  | nil => exact hs
  | cons event events ih => exact ih (hs.next event)

theorem get?_run {name : String} {pool : Pool} (h : s.pools.get? name = some pool)
    (events : List PoolEvent) : (run c s events).pools.get? name = some pool := by
  induction events generalizing s with
  | nil => exact h
  | cons event events ih =>
    refine ih ?_
    cases event with
    | arrive requested => exact h
    | advance i =>
      cases hi : s.callers[i]? with
      | none => simpa [next, hi] using h
      | some caller => simpa [next, hi] using get?_step h

/-- The pools under their names are those that were ever made. -/
theorem entries_run (s : Pooling) (events : List PoolEvent) :
    (run c s events).pools.entries = s.pools.entries ++ opened c s events := by
  induction events generalizing s with
  | nil => simp [run, opened]
  | cons event events ih =>
    have hrun := ih (s.next c event)
    rw [show run c s (event :: events) = run c (s.next c event) events from rfl, hrun]
    cases event with
    | arrive requested => rfl
    | advance i =>
      cases hi : s.callers[i]? with
      | none => simp [next, opened, hi]
      | some caller => simp [next, opened, hi, step_pools]

end Pooling

/-! ### Every call answers -/

/-- How many steps a call takes at most until it answers. -/
def PoolCall.due : PoolCall → Nat
  | .asked _      => 3
  | .resolved _ _ => 2
  | .missed _ _   => 1
  | .answered _   => 0

theorem PoolCall.due_step (c : Configuration) (pools : Pools) (call : PoolCall) :
    (call.step c pools).1.due ≤ call.due - 1 := by
  cases call with
  | asked requested => cases hselect : c.select requested <;> simp [PoolCall.step, hselect, due]
  | resolved name connection => cases hget : pools.get? name <;> simp [PoolCall.step, hget, due]
  | missed name connection => simp [PoolCall.step, due]
  | answered answer => simp [PoolCall.step, due]

/-- A call after `steps` steps of its own: it is the same request, it is that many steps further, and it
keeps an answer that it gave. -/
structure Caller.After (steps : Nat) (caller later : Caller) : Prop where
  requested : later.requested = caller.requested
  due : later.progress.due ≤ caller.progress.due - steps
  kept : ∀ answer, caller.progress = .answered answer → later.progress = .answered answer

theorem Caller.After.answered {steps : Nat} {caller later : Caller} (h : caller.After steps later)
    (hsteps : 3 ≤ steps) : ∃ answer, later.progress = .answered answer := by
  have hmost : caller.progress.due ≤ 3 := by cases caller.progress <;> simp [PoolCall.due]
  have hzero : later.progress.due = 0 := by
    have hdue := h.due
    omega
  cases hlater : later.progress with
  | answered answer => exact ⟨answer, rfl⟩
  | _ => simp [hlater, PoolCall.due] at hzero

theorem Caller.After.trans {m n : Nat} {first second third : Caller} (h : first.After m second)
    (h' : second.After n third) : first.After (n + m) third where
  requested := h'.requested.trans h.requested
  due := by
    have hdue := h.due
    have hdue' := h'.due
    omega
  kept answer hanswer := h'.kept answer (h.kept answer hanswer)

namespace Pooling

variable {c : Configuration} {s : Pooling} {i : Nat} {caller : Caller}

theorem callers_next (h : s.callers[i]? = some caller) (event : PoolEvent) :
    ∃ later, (s.next c event).callers[i]? = some later ∧
      caller.After (if event == .advance i then 1 else 0) later := by
  cases event with
  | arrive requested =>
    refine ⟨caller, ?_, rfl, Nat.le_refl _, fun _ => id⟩
    exact List.getElem?_append_left (List.getElem?_eq_some_iff.1 h).1 ▸ h
  | advance j =>
    by_cases hj : j = i
    · subst hj
      have hlength := (List.getElem?_eq_some_iff.1 h).1
      refine ⟨{ caller with progress := (caller.progress.step c s.pools).1 }, ?_, rfl, ?_, ?_⟩
      · simp only [next, h, Option.elim_some]
        exact List.getElem?_set_self hlength
      · simpa using caller.progress.due_step c s.pools
      · intro answer hanswer
        simp [hanswer, PoolCall.step]
    · refine ⟨caller, ?_, rfl, ?_, fun _ => id⟩
      · cases hother : s.callers[j]? with
        | none => simpa [next, hother] using h
        | some other => simpa [next, hother, List.getElem?_set_ne hj] using h
      · simp [hj]

/-- The steps of the others change nothing about a call. -/
theorem callers_run (h : s.callers[i]? = some caller) (events : List PoolEvent) :
    ∃ later, (run c s events).callers[i]? = some later ∧
      caller.After (events.count (.advance i)) later := by
  induction events generalizing s caller with
  | nil => exact ⟨caller, h, rfl, Nat.le_refl _, fun _ => id⟩
  | cons event events ih =>
    obtain ⟨second, hsecond, hafter⟩ := callers_next (c := c) h event
    obtain ⟨third, hthird, hafter'⟩ := ih hsecond
    refine ⟨third, hthird, ?_⟩
    rw [List.count_cons]
    exact hafter.trans hafter'

end Pooling

/-! ### One pool a database -/

section

variable {c : Configuration} {pools : Pools} {requested : Option String} {name : String}
  {connection : ConnectionSettings}

theorem Configuration.Decides.get? {pool : Pool} (h : c.Decides pools requested (.pool pool))
    (hselect : c.select requested = .database name connection) : pools.get? name = some pool := by
  simp only [Configuration.Decides, hselect] at h
  obtain ⟨_, hpool, hget⟩ := h
  cases hpool
  exact hget

/-- Pools under different names are different. -/
theorem Pools.Sound.serial_ne {other : String} {p q : Pool} (h : pools.Sound c)
    (hp : pools.get? name = some p) (hq : pools.get? other = some q) (hne : name ≠ other) :
    p.serial ≠ q.serial := by
  intro hserial
  have hnodup : (pools.entries.map fun entry => entry.2.serial).Nodup := by
    rw [h.serials]
    exact List.nodup_range
  have hentry :=
    List.inj_on_of_nodup_map hnodup (Members.mem_of_get? hp) (Members.mem_of_get? hq) hserial
  exact hne (congrArg Prod.fst hentry)

end

/-- **Each database has one pool.** Whatever calls come, and however their steps interleave: every pool is
one of a configured database, made from the settings of that database; an entry stays for good; for no name
a second pool is ever made; a call gets the answer that the configuration decides; calls for one database
get one pool, calls for different databases different ones; and a call answers once it has taken three
steps, whatever the others do in between. -/
theorem Pooling.one_pool_per_database (c : Configuration) (events : List PoolEvent) :
    let s := Pooling.run c {} events
    (∀ entry ∈ s.pools.entries,
      Members.get? c.databases entry.1 = some entry.2.connection ∧ entry.2.limits = c.poolSettings) ∧
    (∀ more name pool, s.pools.get? name = some pool →
      (Pooling.run c s more).pools.get? name = some pool) ∧
    ((Pooling.opened c {} events).map Prod.fst).Nodup ∧
    s.pools.made = (Pooling.opened c {} events).length ∧
    (∀ caller ∈ s.callers, ∀ answer, caller.progress = .answered answer →
      c.Decides s.pools caller.requested answer) ∧
    (∀ x ∈ s.callers, ∀ y ∈ s.callers, ∀ p q, x.progress = .answered (.pool p) →
      y.progress = .answered (.pool q) → ∀ n m k l, c.select x.requested = .database n k →
      c.select y.requested = .database m l → (n = m → p = q) ∧ (n ≠ m → p.serial ≠ q.serial)) ∧
    (∀ i caller, s.callers[i]? = some caller → ∀ more, 3 ≤ more.count (.advance i) →
      ∃ answer, (Pooling.run c s more).callers[i]? = some ⟨caller.requested, .answered answer⟩ ∧
        ∀ earlier, caller.progress = .answered earlier → earlier = answer) := by
  intro s
  have hs : s.Sound c := (Pooling.sound_empty c).run events
  have hdecides : ∀ caller ∈ s.callers, ∀ answer, caller.progress = .answered answer →
      c.Decides s.pools caller.requested answer := by
    intro caller hcaller answer hanswer
    simpa [Caller.Sound, hanswer] using hs.callers caller hcaller
  have hentries : s.pools.entries = Pooling.opened c {} events := by
    simpa using Pooling.entries_run (c := c) {} events
  refine ⟨hs.pools.configured, fun more name pool h => Pooling.get?_run h more, ?_, ?_, hdecides, ?_, ?_⟩
  · rw [← hentries]
    exact hs.pools.keys
  · rw [← hentries]
    simpa using (congrArg List.length hs.pools.serials).symm
  · intro x hx y hy p q hp hq n m k l hn hm
    have hgetp := (hdecides x hx _ hp).get? hn
    have hgetq := (hdecides y hy _ hq).get? hm
    refine ⟨fun hsame => ?_, hs.pools.serial_ne hgetp hgetq⟩
    subst hsame
    exact Option.some.inj (hgetp.symm.trans hgetq)
  · intro i caller hcaller more hsteps
    obtain ⟨⟨requested, progress⟩, hlater, hafter⟩ := Pooling.callers_run (c := c) hcaller more
    obtain ⟨answer, hanswer⟩ := hafter.answered hsteps
    obtain rfl : progress = .answered answer := hanswer
    obtain rfl : requested = caller.requested := hafter.requested
    refine ⟨answer, hlater, fun earlier hearlier => ?_⟩
    have hkept := hafter.kept earlier hearlier
    cases hkept
    rfl

/-- Two databases, the first of which is the default. -/
def Pooling.shop : Configuration where
  databases :=
    [("orders", { path := "orders.db", readOnly := false, createIfMissing := true }),
     ("stock", { path := "stock.db", readOnly := true, createIfMissing := false })]
  defaultDatabase := some "orders"
  poolSettings := {}
  querySettings := {}

/-- Two calls for the first database both find no pool, and the one that came later enters it. A call for
the second database comes in between. -/
def Pooling.race : List PoolEvent :=
  [.arrive none, .arrive (some "orders"), .advance 0, .advance 1, .advance 0, .advance 1,
   .arrive (some "stock"), .advance 2, .advance 2, .advance 1, .advance 2, .advance 0]

theorem Pooling.race_answers :
    ∃ p q r, (Pooling.run Pooling.shop {} Pooling.race).callers =
        [⟨none, .answered (.pool p)⟩, ⟨some "orders", .answered (.pool q)⟩,
         ⟨some "stock", .answered (.pool r)⟩] ∧
      p = q ∧ p.serial ≠ r.serial ∧ r.connection.path = "stock.db" := by
  have hcallers : (Pooling.run Pooling.shop {} Pooling.race).callers =
      [⟨none, .answered (.pool ⟨0, ⟨"orders.db", false, true⟩, {}⟩)⟩,
       ⟨some "orders", .answered (.pool ⟨0, ⟨"orders.db", false, true⟩, {}⟩)⟩,
       ⟨some "stock", .answered (.pool ⟨1, ⟨"stock.db", true, false⟩, {}⟩)⟩] := by decide
  obtain ⟨-, -, -, -, -, hpools, -⟩ := Pooling.one_pool_per_database Pooling.shop Pooling.race
  rw [hcallers] at hpools
  refine ⟨_, _, _, hcallers, ?_, ?_, rfl⟩
  · exact (hpools _ (.head _) _ (.tail _ (.head _)) _ _ rfl rfl "orders" "orders" _ _ rfl rfl).1 rfl
  · exact (hpools _ (.head _) _ (.tail _ (.tail _ (.head _))) _ _ rfl rfl "orders" "stock" _ _
      rfl rfl).2 (by decide)

end DataAgent
