import DataAgent.Config.Runtime
import DataAgent.Proofs.Config.Maps
import DataAgent.Proofs.Sql.Outcomes
import Mathlib

/-!
# Proofs — Config — Resolution

A secret that is given inline is its own value, and one that is given by a variable is what the
environment has under that name (`Secret.Yields`). The configuration that a file and an environment give
is the file with the values of its secrets (`Configuration.Resolves`), and there is one if and only if the
file has no defect (`ConfigurationFile.Defect`): a secret that does not resolve, a default database that
is not one of the databases, or relationship fields that may not nest at all. Of several defects the first
is reported (`ConfigurationError.Precedes`): secrets come before the rest, by the names of their
databases, and the default before the depth.

With that configuration a request selects one of the databases or none, and the only name that is ever
denied is one that the request itself brings (`ConfigurationFile.resolve_exact`).
-/

namespace DataAgent

open Sql (forall₂_of_mapM_ok mapM_eq_error_iff)

/-! ### Secrets -/

namespace Secret

/-- The secret has the value: the one given inline, or the one of its variable. -/
inductive Yields (environment : Environment) : Secret → String → Prop
  | plain (value : String) : Yields environment (.plain value) value
  | fromVariable {name value : String} (h : environment name = .ok value) :
      Yields environment (.fromVariable name) value

/-- The secret has no value, because its variable cannot be read. -/
inductive Fails (environment : Environment) : Secret → VariableError → Prop
  | fromVariable {name : String} {e : VariableError} (h : environment name = .error e) :
      Fails environment (.fromVariable name) e

variable {environment : Environment} {s : Secret}

theorem resolve_eq_ok_iff {value : String} :
    s.resolve environment = .ok value ↔ s.Yields environment value := by
  constructor
  · intro h
    cases s with
    | plain own =>
      cases h
      exact .plain value
    | fromVariable name => exact .fromVariable h
  · intro h
    cases h with
    | plain => rfl
    | fromVariable h => exact h

theorem resolve_eq_error_iff {e : VariableError} :
    s.resolve environment = .error e ↔ s.Fails environment e := by
  constructor
  · intro h
    cases s with
    | plain own => cases h
    | fromVariable name => exact .fromVariable h
  · intro h
    cases h with
    | fromVariable h => exact h

/-- A secret has a value, or there is a reason why it has none. -/
theorem yields_or_fails (environment : Environment) (s : Secret) :
    (∃ value, s.Yields environment value) ∨ ∃ e, s.Fails environment e := by
  cases h : s.resolve environment with
  | ok value => exact .inl ⟨value, resolve_eq_ok_iff.1 h⟩
  | error e => exact .inr ⟨e, resolve_eq_error_iff.1 h⟩

theorem Yields.unique {value value' : String} (h : s.Yields environment value)
    (h' : s.Yields environment value') : value = value' := by
  cases (resolve_eq_ok_iff.2 h).symm.trans (resolve_eq_ok_iff.2 h')
  rfl

theorem Fails.not_yields {e : VariableError} (h : s.Fails environment e) {value : String} :
    ¬ s.Yields environment value := by
  intro hvalue
  cases (resolve_eq_error_iff.2 h).symm.trans (resolve_eq_ok_iff.2 hvalue)

theorem Fails.unique {e e' : VariableError} (h : s.Fails environment e)
    (h' : s.Fails environment e') : e = e' := by
  cases (resolve_eq_error_iff.2 h).symm.trans (resolve_eq_error_iff.2 h')
  rfl

end Secret

/-! ### Defects -/

/-- The error says what is wrong with the file in the environment. -/
inductive ConfigurationFile.Defect (environment : Environment) (file : ConfigurationFile) :
    ConfigurationError → Prop
  | unresolved {name : String} {s : DatabaseSettings} {e : VariableError}
      (hmem : (name, s) ∈ file.databases) (h : s.path.Fails environment e) :
      Defect environment file (.unresolved name e)
  | unknownDefault {name : String} (h : file.defaultDatabase = some name)
      (hname : name ∉ file.databases.map Prod.fst) : Defect environment file (.unknownDefault name)
  | zeroDepth (h : file.querySettings.maxRelationshipDepth = 0) : Defect environment file .zeroDepth

namespace ConfigurationError

/-- The first error is reported in place of the second. -/
inductive Precedes : ConfigurationError → ConfigurationError → Prop
  | names {a b : String} {e f : VariableError} (h : bytesOf a < bytesOf b) :
      Precedes (.unresolved a e) (.unresolved b f)
  | secretOverDefault {a b : String} {e : VariableError} : Precedes (.unresolved a e) (.unknownDefault b)
  | secretOverDepth {a : String} {e : VariableError} : Precedes (.unresolved a e) .zeroDepth
  | defaultOverDepth {a : String} : Precedes (.unknownDefault a) .zeroDepth

theorem Precedes.asymm {a b : ConfigurationError} (h : a.Precedes b) : ¬ b.Precedes a := by
  intro h'
  cases h with
  | names h =>
    cases h' with
    | names h' => exact List.lt_asymm h h'
  | secretOverDefault | secretOverDepth | defaultOverDepth => cases h'

end ConfigurationError

/-! ### Connections -/

/-- The connection has the path that the secret yields and the flags of the settings. -/
structure ConnectionSettings.Resolves (environment : Environment) (s : DatabaseSettings)
    (connection : ConnectionSettings) : Prop where
  path : s.path.Yields environment connection.path
  readOnly : connection.readOnly = s.readOnly
  createIfMissing : connection.createIfMissing = s.createIfMissing

/-- The database of a configuration has the name of that of a file, and its connection. -/
structure DatabaseResolves (environment : Environment) (member : String × DatabaseSettings)
    (resolved : String × ConnectionSettings) : Prop where
  name : resolved.1 = member.1
  connection : resolved.2.Resolves environment member.2

/-- The configuration has the databases of the file, one for each and in their order, and the settings of
the file. -/
structure Configuration.Resolves (environment : Environment) (file : ConfigurationFile)
    (c : Configuration) : Prop where
  databases : List.Forall₂ (DatabaseResolves environment) file.databases c.databases
  defaultDatabase : c.defaultDatabase = file.defaultDatabase
  poolSettings : c.poolSettings = file.poolSettings
  querySettings : c.querySettings = file.querySettings

section

variable {environment : Environment}

/-- The settings of a database under its name. -/
def resolveMember (environment : Environment) (member : String × DatabaseSettings) :
    Except ConfigurationError (String × ConnectionSettings) :=
  (fun connection => (member.1, connection)) <$> member.2.resolve environment member.1

theorem resolveAll_eq_mapM (environment : Environment) (databases : Members DatabaseSettings) :
    resolveAll environment databases = databases.mapM (resolveMember environment) := by
  induction databases with
  | nil => rfl
  | cons member rest ih =>
    obtain ⟨name, s⟩ := member
    rw [resolveAll, List.mapM_cons, ih, resolveMember]
    cases s.resolve environment name <;> rfl

theorem resolveMember_ok {member : String × DatabaseSettings} {resolved : String × ConnectionSettings}
    (h : resolveMember environment member = .ok resolved) :
    DatabaseResolves environment member resolved := by
  rw [resolveMember, DatabaseSettings.resolve] at h
  cases hpath : member.2.path.resolve environment with
  | error e =>
    rw [hpath] at h
    cases h
  | ok path =>
    rw [hpath] at h
    cases h
    exact ⟨rfl, Secret.resolve_eq_ok_iff.1 hpath, rfl, rfl⟩

theorem resolveMember_error {member : String × DatabaseSettings} {e : ConfigurationError}
    (h : resolveMember environment member = .error e) :
    ∃ v, member.2.path.Fails environment v ∧ e = .unresolved member.1 v := by
  rw [resolveMember, DatabaseSettings.resolve] at h
  cases hpath : member.2.path.resolve environment with
  | error v =>
    rw [hpath] at h
    cases h
    exact ⟨v, Secret.resolve_eq_error_iff.1 hpath, rfl⟩
  | ok path =>
    rw [hpath] at h
    cases h

variable {databases : Members DatabaseSettings} {resolved : Members ConnectionSettings}

theorem forall₂_of_resolveAll (h : resolveAll environment databases = .ok resolved) :
    List.Forall₂ (DatabaseResolves environment) databases resolved := by
  rw [resolveAll_eq_mapM] at h
  exact (forall₂_of_mapM_ok h).imp fun _ _ => resolveMember_ok

theorem names_of_forall₂ (h : List.Forall₂ (DatabaseResolves environment) databases resolved) :
    resolved.map Prod.fst = databases.map Prod.fst := by
  induction h with
  | nil => rfl
  | cons hmember _ ih => rw [List.map_cons, List.map_cons, hmember.name, ih]

/-- Secrets fail with the first of them that does, and what stands before it resolves. -/
theorem first_of_resolveAll {e : ConfigurationError}
    (h : resolveAll environment databases = .error e) :
    ∃ before name s after v, databases = before ++ (name, s) :: after ∧
      (∀ member ∈ before, ∃ path, member.2.path.Yields environment path) ∧
      s.path.Fails environment v ∧ e = .unresolved name v := by
  rw [resolveAll_eq_mapM] at h
  obtain ⟨before, ⟨name, s⟩, after, rfl, hbefore, hfails⟩ := mapM_eq_error_iff.1 h
  obtain ⟨v, hv, rfl⟩ := resolveMember_error hfails
  refine ⟨before, name, s, after, v, rfl, fun member hmember => ?_, hv, rfl⟩
  obtain ⟨connection, hconnection⟩ := hbefore member hmember
  exact ⟨_, (resolveMember_ok hconnection).connection.path⟩

end

/-! ### Files -/

namespace ConfigurationFile

variable {environment : Environment} {file : ConfigurationFile}

/-- A secret that is reported comes before all other defects. -/
theorem defect_of_resolveAll (hordered : Members.Ordered file.databases) {e : ConfigurationError}
    (h : resolveAll environment file.databases = .error e) :
    file.Defect environment e ∧ ∀ d, file.Defect environment d → d = e ∨ e.Precedes d := by
  obtain ⟨before, name, s, after, v, hdatabases, hbefore, hv, rfl⟩ := first_of_resolveAll h
  refine ⟨.unresolved (by rw [hdatabases]; simp) hv, fun d hd => ?_⟩
  cases hd with
  | @unresolved other t w hmem hw =>
    rw [hdatabases] at hmem
    rcases List.mem_append.1 hmem with hmem | hmem
    · obtain ⟨path, hpath⟩ := hbefore _ hmem
      exact absurd hpath hw.not_yields
    rcases List.mem_cons.1 hmem with heq | hmem
    · cases heq
      rw [hw.unique hv]
      exact .inl rfl
    · -- Of the databases that stand after it the names are greater.
      rw [hdatabases, Members.Ordered, List.pairwise_append, List.pairwise_cons] at hordered
      exact .inr (.names (hordered.2.1.1 _ hmem))
  | unknownDefault => exact .inr .secretOverDefault
  | zeroDepth => exact .inr .secretOverDepth

theorem not_unresolved {resolved : Members ConnectionSettings}
    (h : resolveAll environment file.databases = .ok resolved) {name : String} {e : VariableError} :
    ¬ file.Defect environment (.unresolved name e) := by
  rintro ⟨hmem, he⟩
  obtain ⟨connection, hconnection⟩ := Sql.exists_of_mem_forall₂ (forall₂_of_resolveAll h) hmem
  exact he.not_yields hconnection.connection.path

/-- What comes of a file whose secrets resolve. -/
theorem resolve_of_resolveAll {resolved : Members ConnectionSettings}
    (h : resolveAll environment file.databases = .ok resolved) :
    (∃ name, file.defaultDatabase = some name ∧ name ∉ file.databases.map Prod.fst ∧
      file.resolve environment = .error (.unknownDefault name)) ∨
    (∀ name ∈ file.defaultDatabase, name ∈ file.databases.map Prod.fst) ∧
      file.resolve environment = if file.querySettings.maxRelationshipDepth = 0 then .error .zeroDepth
        else .ok { databases := resolved, defaultDatabase := file.defaultDatabase,
                   poolSettings := file.poolSettings, querySettings := file.querySettings } := by
  have hknown : ∀ name, (Members.get? resolved name).isNone = true ↔
      name ∉ file.databases.map Prod.fst := by
    intro name
    rw [Option.isNone_iff_eq_none, Members.get?_eq_none_iff, names_of_forall₂ (forall₂_of_resolveAll h)]
  simp only [resolve, h, bind, Except.bind]
  cases file.defaultDatabase with
  | none =>
    refine .inr ⟨by simp, ?_⟩
    dsimp only
    split <;> rfl
  | some name =>
    by_cases hname : name ∈ file.databases.map Prod.fst
    · refine .inr ⟨by simpa using hname, ?_⟩
      simp only [if_neg (mt (hknown name).1 (not_not.2 hname))]
      split <;> rfl
    · refine .inl ⟨name, rfl, hname, ?_⟩
      simp only [if_pos ((hknown name).2 hname)]
      rfl

/-- **What a file comes to**: the first of its defects or, if it has none, its configuration. -/
theorem resolve_spec (hordered : Members.Ordered file.databases) :
    (∃ e, file.resolve environment = .error e ∧ file.Defect environment e ∧
      ∀ d, file.Defect environment d → d = e ∨ e.Precedes d) ∨
    ∃ c, file.resolve environment = .ok c ∧ (∀ e, ¬ file.Defect environment e) ∧
      c.Resolves environment file := by
  cases hall : resolveAll environment file.databases with
  | error e =>
    have hresolve : file.resolve environment = .error e := by
      rw [resolve, hall]
      rfl
    exact .inl ⟨e, hresolve, defect_of_resolveAll hordered hall⟩
  | ok resolved =>
    -- From here on each check that passes rules out the defects of its kind.
    have hsecrets : ∀ {name e}, ¬ file.Defect environment (.unresolved name e) := not_unresolved hall
    rcases resolve_of_resolveAll hall with ⟨name, hdefault, hname, hresolve⟩ | ⟨hdefault, hresolve⟩
    · refine .inl ⟨_, hresolve, .unknownDefault hdefault hname, fun d hd => ?_⟩
      cases hd with
      | unresolved hmem he => exact absurd (.unresolved hmem he) hsecrets
      | unknownDefault hother =>
        rw [hdefault] at hother
        cases hother
        exact .inl rfl
      | zeroDepth => exact .inr .defaultOverDepth
    have hknown : ∀ {name}, ¬ file.Defect environment (.unknownDefault name) := by
      intro name hd
      cases hd with
      | unknownDefault h hname => exact hname (hdefault name h)
    by_cases hdepth : file.querySettings.maxRelationshipDepth = 0
    · rw [if_pos hdepth] at hresolve
      refine .inl ⟨_, hresolve, .zeroDepth hdepth, fun d hd => ?_⟩
      cases hd with
      | unresolved hmem he => exact absurd (.unresolved hmem he) hsecrets
      | unknownDefault h hname => exact absurd (.unknownDefault h hname) hknown
      | zeroDepth => exact .inl rfl
    · rw [if_neg hdepth] at hresolve
      refine .inr ⟨_, hresolve, fun e he => ?_, ?_⟩
      · cases he with
        | unresolved hmem he => exact hsecrets (.unresolved hmem he)
        | unknownDefault h hname => exact hknown (.unknownDefault h hname)
        | zeroDepth h => exact hdepth h
      · exact ⟨forall₂_of_resolveAll hall, rfl, rfl, rfl⟩

theorem no_defect_iff : (∀ e, ¬ file.Defect environment e) ↔
    (∀ member ∈ file.databases, ∃ path, member.2.path.Yields environment path) ∧
    (∀ name ∈ file.defaultDatabase, name ∈ file.databases.map Prod.fst) ∧
    file.querySettings.maxRelationshipDepth ≠ 0 := by
  constructor
  · intro h
    refine ⟨fun member hmem => ?_, fun name hname => ?_, fun hdepth => h _ (.zeroDepth hdepth)⟩
    · rcases member.2.path.yields_or_fails environment with hpath | ⟨e, he⟩
      · exact hpath
      · exact absurd (.unresolved hmem he) (h _)
    · by_contra hunknown
      exact h _ (.unknownDefault hname hunknown)
  · rintro ⟨hsecrets, hdefault, hdepth⟩ e he
    cases he with
    | unresolved hmem he =>
      obtain ⟨path, hpath⟩ := hsecrets _ hmem
      exact he.not_yields hpath
    | unknownDefault h hname => exact hname (hdefault _ h)
    | zeroDepth h => exact hdepth h

theorem no_defect_of_resolve (hordered : Members.Ordered file.databases) {c : Configuration}
    (h : file.resolve environment = .ok c) :
    (∀ e, ¬ file.Defect environment e) ∧ c.Resolves environment file := by
  rcases resolve_spec hordered with ⟨e, herror, -⟩ | ⟨c', hc, hnone, hresolves⟩
  · rw [h] at herror
    cases herror
  · rw [h] at hc
    cases hc
    exact ⟨hnone, hresolves⟩

theorem exists_resolve_iff (hordered : Members.Ordered file.databases) :
    (∃ c, file.resolve environment = .ok c) ↔ ∀ e, ¬ file.Defect environment e := by
  constructor
  · rintro ⟨c, hc⟩
    exact (no_defect_of_resolve hordered hc).1
  · intro hnone
    rcases resolve_spec hordered with ⟨e, -, he, -⟩ | ⟨c, hc, -⟩
    · exact absurd he (hnone e)
    · exact ⟨c, hc⟩

theorem resolve_eq_error_iff (hordered : Members.Ordered file.databases) {e : ConfigurationError} :
    file.resolve environment = .error e ↔
      file.Defect environment e ∧ ∀ d, file.Defect environment d → d = e ∨ e.Precedes d := by
  rcases resolve_spec hordered with ⟨first, hresolve, hfirst, hleast⟩ | ⟨c, hresolve, hnone, -⟩
  · rw [hresolve, Except.error.injEq]
    constructor
    · rintro rfl
      exact ⟨hfirst, hleast⟩
    · -- Two defects that both come first are the same.
      rintro ⟨he, hleast'⟩
      rcases hleast e he with heq | hprecedes
      · exact heq.symm
      · exact (hleast' first hfirst).elim id fun h => absurd h hprecedes.asymm
  · rw [hresolve]
    constructor
    · intro h
      cases h
    · rintro ⟨he, -⟩
      exact absurd he (hnone e)

end ConfigurationFile

/-! ### Selection -/

namespace Configuration

variable {c : Configuration} {requested : Option String}

theorem select_eq_elim (c : Configuration) (requested : Option String) :
    c.select requested = (requested.or c.defaultDatabase).elim .none fun name =>
      (Members.get? c.databases name).elim (.denied name) (.database name) := by
  have hor : (requested <|> c.defaultDatabase) = requested.or c.defaultDatabase := by
    cases requested <;> rfl
  rw [select, hor]
  cases requested.or c.defaultDatabase with
  | none => rfl
  | some name =>
    rw [Option.elim_some]
    dsimp only
    cases Members.get? c.databases name <;> rfl

theorem select_eq_none_iff :
    c.select requested = .none ↔ requested = none ∧ c.defaultDatabase = none := by
  rw [select_eq_elim, ← Option.or_eq_none_iff]
  cases requested.or c.defaultDatabase with
  | none => simp
  | some name => cases hget : Members.get? c.databases name <;> simp [hget]

theorem select_eq_database_iff {name : String} {connection : ConnectionSettings} :
    c.select requested = .database name connection ↔
      requested.or c.defaultDatabase = some name ∧ Members.get? c.databases name = some connection := by
  rw [select_eq_elim]
  cases requested.or c.defaultDatabase with
  | none => simp
  | some asked =>
    rw [Option.elim_some, Option.some.injEq]
    cases hget : Members.get? c.databases asked <;> grind

theorem select_eq_denied_iff {name : String} :
    c.select requested = .denied name ↔
      requested.or c.defaultDatabase = some name ∧ name ∉ c.databases.map Prod.fst := by
  rw [select_eq_elim, ← Members.get?_eq_none_iff]
  cases requested.or c.defaultDatabase with
  | none => simp
  | some asked =>
    rw [Option.elim_some, Option.some.injEq]
    cases hget : Members.get? c.databases asked <;> grind

/-- If the default is one of the databases, what is denied is what was asked for. -/
theorem select_eq_denied_iff_of_default
    (hdefault : ∀ name ∈ c.defaultDatabase, name ∈ c.databases.map Prod.fst) {name : String} :
    c.select requested = .denied name ↔
      requested = some name ∧ name ∉ c.databases.map Prod.fst := by
  rw [select_eq_denied_iff, Option.or_eq_some_iff]
  constructor
  · rintro ⟨hasked | ⟨-, hname⟩, hunknown⟩
    · exact ⟨hasked, hunknown⟩
    · exact absurd (hdefault name hname) hunknown
  · rintro ⟨hasked, hunknown⟩
    exact ⟨.inl hasked, hunknown⟩

end Configuration

/-- **The configuration is the file with its secrets resolved**: there is one if and only if every secret
has a value, the default is one of the databases and relationship fields may nest; and else the error is
that of the first defect. Each database has the path that its secret yields and the flags of the file. A
request selects none of the databases, or the one it asks for or else the default one; a name is denied
only if the request asks for it, and it is not one of the databases, so a request that asks for none is
never denied. -/
theorem ConfigurationFile.resolve_exact {file : ConfigurationFile}
    (h : Members.Ordered file.databases) (environment : Environment) :
    ((∃ c, file.resolve environment = .ok c) ↔
      (∀ member ∈ file.databases, ∃ path, member.2.path.Yields environment path) ∧
      (∀ name ∈ file.defaultDatabase, name ∈ file.databases.map Prod.fst) ∧
      file.querySettings.maxRelationshipDepth ≠ 0) ∧
    (∀ e, file.resolve environment = .error e ↔
      file.Defect environment e ∧ ∀ d, file.Defect environment d → d = e ∨ e.Precedes d) ∧
    ∀ c, file.resolve environment = .ok c →
      c.Resolves environment file ∧
      ∀ requested,
        (c.select requested = .none ↔ requested = none ∧ c.defaultDatabase = none) ∧
        (∀ name connection, c.select requested = .database name connection ↔
          (requested = some name ∨ requested = none ∧ c.defaultDatabase = some name) ∧
            (name, connection) ∈ c.databases) ∧
        (∀ name, c.select requested = .denied name ↔
          requested = some name ∧ name ∉ c.databases.map Prod.fst) ∧
        (requested = none → ∀ name, c.select requested ≠ .denied name) := by
  refine ⟨(exists_resolve_iff h).trans no_defect_iff, fun e => resolve_eq_error_iff h, fun c hc => ?_⟩
  obtain ⟨hnone, hresolves⟩ := no_defect_of_resolve h hc
  have hnames : c.databases.map Prod.fst = file.databases.map Prod.fst :=
    names_of_forall₂ hresolves.databases
  have hdefault : ∀ name ∈ c.defaultDatabase, name ∈ c.databases.map Prod.fst := by
    rw [hnames, hresolves.defaultDatabase]
    exact (no_defect_iff.1 hnone).2.1
  have hnodup : (c.databases.map Prod.fst).Nodup := hnames ▸ h.nodup
  refine ⟨hresolves, fun requested => ⟨Configuration.select_eq_none_iff, fun name connection => ?_,
    fun name => Configuration.select_eq_denied_iff_of_default hdefault, ?_⟩⟩
  · rw [Configuration.select_eq_database_iff, Option.or_eq_some_iff, Members.get?_eq_some_iff hnodup]
  · rintro rfl name hdenied
    cases ((Configuration.select_eq_denied_iff_of_default hdefault).1 hdenied).1

namespace Music

/-- Two databases, the first of which is found through a variable. -/
def shelf : ConfigurationFile :=
  { version := 1
    databases :=
      [("archive", { path := .fromVariable "ARCHIVE" }),
       ("chinook", { path := .plain "chinook.db", readOnly := false })]
    defaultDatabase := some "chinook" }

/-- The same, with a default that is not there, and without relationship fields. -/
def misfiled : ConfigurationFile :=
  { shelf with defaultDatabase := some "jazz", querySettings := { maxRelationshipDepth := 0 } }

theorem ordered_shelf : Members.Ordered shelf.databases := by
  rw [Members.ordered_iff]
  decide

/-- The databases of the shelf where `ARCHIVE` is the letter `a`. -/
def shelved : Members ConnectionSettings :=
  [("archive", { path := "a", readOnly := true, createIfMissing := false }),
   ("chinook", { path := "chinook.db", readOnly := false, createIfMissing := false })]

/-- There is one configuration at most, as each secret yields one path. -/
theorem databases_of_resolves {environment : Environment} (henv : environment "ARCHIVE" = .ok "a")
    {c : Configuration} (h : c.Resolves environment shelf) : c.databases = shelved := by
  obtain ⟨databases, defaultDatabase, poolSettings, querySettings⟩ := c
  obtain ⟨hdatabases, -, -, -⟩ := h
  cases hdatabases with
  | @cons _ archive _ _ harchive hrest =>
    cases hrest with
    | @cons _ chinook _ _ hchinook hnil =>
      cases hnil
      obtain ⟨name, path, readOnly, createIfMissing⟩ := archive
      obtain ⟨name', path', readOnly', createIfMissing'⟩ := chinook
      obtain ⟨rfl, harchive, rfl, rfl⟩ := harchive
      obtain ⟨rfl, hchinook, rfl, rfl⟩ := hchinook
      obtain rfl : path = "a" := harchive.unique (.fromVariable henv)
      obtain rfl : path' = "chinook.db" := hchinook.unique (.plain _)
      rfl

/-- With the variable the file has a configuration with the path of the variable and the plain one, and a
request that asks for no database has the default one. Without it the secret is reported, whatever else is
wrong. -/
theorem shelf_resolved :
    Members.Ordered shelf.databases ∧ Members.Ordered misfiled.databases ∧
    (∃ c, shelf.resolve (.ofBytes [("ARCHIVE", [97])]) = .ok c ∧
      c.Resolves (.ofBytes [("ARCHIVE", [97])]) shelf ∧ c.databases = shelved ∧
      c.select none = .database "chinook"
        { path := "chinook.db", readOnly := false, createIfMissing := false } ∧
      ∀ name, c.select none ≠ .denied name) ∧
    misfiled.resolve (.ofBytes []) = .error (.unresolved "archive" (.missing "ARCHIVE")) := by
  have hvariable : Environment.ofBytes [("ARCHIVE", [97])] "ARCHIVE" = .ok "a" := by cbv
  have hmissing : Environment.ofBytes [] "ARCHIVE" = .error (.missing "ARCHIVE") := rfl
  obtain ⟨hok, -, hall⟩ := shelf.resolve_exact ordered_shelf (.ofBytes [("ARCHIVE", [97])])
  obtain ⟨-, herror, -⟩ := misfiled.resolve_exact ordered_shelf (.ofBytes [])
  refine ⟨ordered_shelf, ordered_shelf, ?_,
    (herror _).2 ⟨.unresolved (List.mem_cons_self ..) (.fromVariable hmissing), ?_⟩⟩
  · obtain ⟨c, hc⟩ := hok.2 ⟨List.forall_mem_cons.2 ⟨⟨"a", .fromVariable hvariable⟩,
      List.forall_mem_cons.2 ⟨⟨"chinook.db", .plain _⟩, List.forall_mem_nil _⟩⟩, by decide, by decide⟩
    obtain ⟨hresolves, hselect⟩ := hall c hc
    have hdatabases : c.databases = shelved := databases_of_resolves hvariable hresolves
    refine ⟨c, hc, hresolves, hdatabases, ?_, (hselect none).2.2.2 rfl⟩
    rw [(hselect none).2.1, hdatabases]
    exact ⟨.inr ⟨rfl, hresolves.defaultDatabase⟩, List.mem_cons_of_mem _ (List.mem_cons_self ..)⟩
  · intro d hd
    cases hd with
    | @unresolved name s e hmem he =>
      simp only [misfiled, shelf, List.mem_cons, Prod.mk.injEq, List.not_mem_nil, or_false] at hmem
      rcases hmem with ⟨rfl, rfl⟩ | ⟨rfl, rfl⟩
      · rw [he.unique (.fromVariable hmissing)]
        exact .inl rfl
      · cases he
    | unknownDefault => exact .inr .secretOverDefault
    | zeroDepth => exact .inr .secretOverDepth

end Music

end DataAgent
