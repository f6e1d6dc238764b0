import DataAgent.Config.Secret
import DataAgent.Config.Settings

/-!
# Config — File

The configuration file: its version, the databases that requests may select, and the settings.
What has its default is not written, except for the databases.
-/

namespace DataAgent

open Decode

/-- A database file that requests may select. -/
structure DatabaseSettings where
  path : Secret
  readOnly : Bool := true
  createIfMissing : Bool := false
  deriving DecidableEq, Repr

namespace DatabaseSettings

/-- The settings of a database as a document. -/
def json (s : DatabaseSettings) : Json :=
  .obj [("path", s.path.json), ("readOnly", .bool s.readOnly),
    ("createIfMissing", .bool s.createIfMissing)]

/-- The settings of a database of a document. -/
def decoder : Decoder DatabaseSettings :=
  record "DatabaseSettings"
    (.cons (.required "path" Secret.decoder) <|
      .cons (.withDefault "readOnly" boolean true) <|
      .cons (.withDefault "createIfMissing" boolean false) .nil)
    fun (path, readOnly, createIfMissing, ()) => { path, readOnly, createIfMissing }

end DatabaseSettings

/-- The members with their keys in order. -/
def Members.sorted {α : Type} (m : Members α) : Members α := m.mergeSort fun a b => !(b.1 < a.1)

/-- The configuration file. The databases are in the order of their names. -/
structure ConfigurationFile where
  version : Nat
  schema : Option String := none
  databases : Members DatabaseSettings := []
  defaultDatabase : Option String := none
  poolSettings : PoolSettings := {}
  querySettings : QuerySettings := {}
  deriving DecidableEq, Repr

/-- Why the configuration file cannot be used. -/
inductive FileError
  | notFound
  | notText
  /-- The text is not that of a configuration; a fault of the text has a line and a column. -/
  | malformed (error : DecodeError) (position : Option (Nat × Nat))
  | unsupportedVersion (found : Nat)
  deriving Repr

namespace ConfigurationFile

/-- The name of the file. -/
def fileName : String := "configuration.json"

/-- The name of the file with its schema. -/
def schemaFileName : String := "schema.json"

/-- The only version there is. -/
def currentVersion : Nat := 1

/-- A configuration without databases. -/
def empty : ConfigurationFile :=
  { version := currentVersion, schema := some schemaFileName }

/-- A member that is left out when it is the default. -/
def memberUnless {α : Type} [DecidableEq α] (key : String) (f : α → Json) (standard a : α) :
    List (String × Json) :=
  if a = standard then [] else [(key, f a)]

/-- The configuration as a document. -/
def json (c : ConfigurationFile) : Json :=
  .obj ([("version", .nat c.version)] ++ Json.memberIfSome "$schema" .str c.schema ++
    [("databases", .obj (c.databases.map fun (name, s) => (name, s.json)))] ++
    Json.memberIfSome "defaultDatabase" .str c.defaultDatabase ++
    memberUnless "poolSettings" PoolSettings.json {} c.poolSettings ++
    memberUnless "querySettings" QuerySettings.json {} c.querySettings)

/-- The configuration of a document. -/
def decoder : Decoder ConfigurationFile :=
  record "ParsedConfiguration"
    (.cons (.required "version" (unsigned 32)) <|
      .cons (.optional "$schema" string) <|
      .cons (.withDefault "databases" (members DatabaseSettings.decoder) []) <|
      .cons (.optional "defaultDatabase" string) <|
      .cons (.withDefault "poolSettings" PoolSettings.decoder {}) <|
      .cons (.withDefault "querySettings" QuerySettings.decoder {}) .nil)
    fun (version, schema, databases, defaultDatabase, poolSettings, querySettings, ()) =>
      { version, schema, databases := Members.sorted databases, defaultDatabase, poolSettings
        querySettings }

/-- The line and the column of a fault of the text. -/
def positionOf (text : Text) : DecodeError → Option (Nat × Nat)
  | .malformed _ (some place) => some (place.lineColumn text)
  | _                         => none

/-- The configuration of the text of a file. -/
def ofText (text : Text) : Except FileError ConfigurationFile :=
  match decodeText decoder text with
  | .error e => .error (.malformed e (positionOf text e))
  | .ok c    => if c.version = currentVersion then .ok c else .error (.unsupportedVersion c.version)

/-- The configuration of a file, if there is one. -/
def ofFile : Option Text → Except FileError ConfigurationFile
  | none      => .error .notFound
  | some text => if text.toString?.isNone then .error .notText else ofText text

end ConfigurationFile

/-- The wording of an error. -/
def FileError.message : FileError → String
  | .notFound =>
    "could not read " ++ ConfigurationFile.fileName ++ ": No such file or directory (os error 2)"
  | .notText =>
    "could not read " ++ ConfigurationFile.fileName ++ ": stream did not contain valid UTF-8"
  | .malformed e _ => e.message
  | .unsupportedVersion found =>
    "unsupported configuration version " ++ toString found ++ " in " ++
      ConfigurationFile.fileName ++ "; expected " ++ toString ConfigurationFile.currentVersion

end DataAgent
