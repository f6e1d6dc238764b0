import DataAgent.Config.File

/-!
# Config — Runtime

The configuration as the agent runs with it: secrets are resolved, the default database is one
of the databases, and relationship fields may nest at least once. `Configuration.select` is the
one place that says which database a request is for.
-/

namespace DataAgent

/-- Where a database is, and how it may be opened. -/
structure ConnectionSettings where
  path : String
  readOnly : Bool
  createIfMissing : Bool
  deriving DecidableEq, Repr

/-- What the agent runs with. -/
structure Configuration where
  databases : Members ConnectionSettings
  defaultDatabase : Option String
  poolSettings : PoolSettings
  querySettings : QuerySettings
  deriving DecidableEq, Repr

/-- Why the agent cannot run with a configuration. -/
inductive ConfigurationError
  | unresolved (database : String) (error : VariableError)
  | unknownDefault (database : String)
  | zeroDepth
  deriving DecidableEq, Repr

/-- The wording of an error. -/
def ConfigurationError.message : ConfigurationError → String
  | .unresolved database e =>
    "invalid configuration for database '" ++ database ++ "': " ++ e.message
  | .unknownDefault database =>
    "the default database '" ++ database ++ "' is not one of the configured databases"
  | .zeroDepth => "invalid query settings: maxRelationshipDepth must be at least 1"

/-- The settings of a database with its secret resolved. -/
def DatabaseSettings.resolve (environment : Environment) (name : String) (s : DatabaseSettings) :
    Except ConfigurationError ConnectionSettings :=
  match s.path.resolve environment with
  | .ok path => .ok { path, readOnly := s.readOnly, createIfMissing := s.createIfMissing }
  | .error e => .error (.unresolved name e)

/-- The settings of all databases. -/
def resolveAll (environment : Environment) :
    Members DatabaseSettings → Except ConfigurationError (Members ConnectionSettings)
  | [] => return []
  | (name, s) :: rest =>
    return (name, ← s.resolve environment name) :: (← resolveAll environment rest)

/-- The configuration that a file and an environment give. -/
def ConfigurationFile.resolve (environment : Environment) (file : ConfigurationFile) :
    Except ConfigurationError Configuration := do
  let databases ← resolveAll environment file.databases
  match file.defaultDatabase with
  | some name => if (Members.get? databases name).isNone then throw (.unknownDefault name)
  | none => pure ()
  if file.querySettings.maxRelationshipDepth = 0 then throw .zeroDepth
  return { databases
           defaultDatabase := file.defaultDatabase
           poolSettings := file.poolSettings
           querySettings := file.querySettings }

/-- The database a request is for. -/
inductive Selection
  | none
  | database (name : String) (settings : ConnectionSettings)
  | denied (name : String)
  deriving DecidableEq, Repr

/-- The database that is requested, or else the default one, if it is configured. -/
def Configuration.select (c : Configuration) (requested : Option String) : Selection :=
  match requested <|> c.defaultDatabase with
  | .none => .none
  | some name =>
    match Members.get? c.databases name with
    | some settings => .database name settings
    | .none         => .denied name

end DataAgent
