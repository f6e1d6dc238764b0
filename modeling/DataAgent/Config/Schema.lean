import DataAgent.Config.File

/-!
# Config — Schema

The schema of the configuration file, for editors.
-/

namespace DataAgent.ConfigurationSchema

/-- A member with a description. -/
def described (text : String) (rest : List (String × Json)) : Json :=
  .obj (("description", .str text) :: rest)

/-- A reference to a definition. -/
def reference (name : String) : Json := .obj [("$ref", .str ("#/definitions/" ++ name))]

/-- The type of a member. -/
def type (name : String) : String × Json := ("type", .str name)

/-- The type of a member that may be null. -/
def nullable (name : String) : String × Json := ("type", .strings [name, "null"])

/-- An integer of so many bits without a sign. -/
def unsigned (bits : String) : List (String × Json) :=
  [("format", .str bits), ("minimum", .num (.double .zero))]

/-- A boolean with a default. -/
def flag (standard : Bool) : List (String × Json) := [("default", .bool standard), type "boolean"]

/-- A number with a default. -/
def count (standard : Nat) (bits : String) : List (String × Json) :=
  [("default", .nat standard), type "integer"] ++ unsigned bits

/-- The schema of a database's settings. -/
def databaseSettings : Json :=
  described "One allow-listed SQLite database file." [
    type "object",
    ("required", .strings ["path"]),
    ("properties", .obj [
      ("path", described
        "Path to the database file, relative to the working directory of the connector."
        [("allOf", .arr [reference "Secret"])]),
      ("readOnly", .obj (flag true)),
      ("createIfMissing", .obj (flag false))])]

/-- The schema of a secret. -/
def secret : Json :=
  described "A value given either inline or by naming the environment variable that holds it." [
    ("anyOf", .arr [
      .obj [type "string"],
      .obj [type "object", ("required", .strings ["variable"]),
        ("properties", .obj [("variable", .obj [type "string"])])]])]

/-- The schema of the pool settings. -/
def poolSettings : Json :=
  described "Settings for the SQLite connection pools, one pool per database." [
    type "object",
    ("properties", .obj [
      ("maxConnections", described "maximum number of pool connections" (count 8 "uint32")),
      ("poolTimeout", described "timeout for acquiring a connection from the pool (seconds)"
        (count 30 "uint64")),
      ("idleTimeout", described "idle timeout for releasing a connection from the pool (seconds)"
        ([("default", .nat 180), nullable "integer"] ++ unsigned "uint64")),
      ("connectionLifetime", described "maximum lifetime for an individual connection (seconds)"
        ([("default", .nat 600), nullable "integer"] ++ unsigned "uint64"))])]

/-- The schema of the query settings. -/
def querySettings : Json :=
  described "Settings for compiling and running queries." [
    type "object",
    ("properties", .obj [
      ("debugTags", described
        "Surround each compiled fragment with comments naming the rule that produced it."
        (flag false)),
      ("maxRelationshipDepth", described "How deeply relationship fields may nest."
        (count 16 "uint32")),
      ("maxPathLength", described "How many relationships a filter column may traverse."
        (count 16 "uint32")),
      ("timeoutSeconds", described "Abort a statement that runs longer than this (seconds)."
        (nullable "integer" :: unsigned "uint64"))])]

/-- The schema of the configuration file. -/
def document : Json :=
  .obj [
    ("$schema", .str "http://json-schema.org/draft-07/schema#"),
    ("title", .str "ParsedConfiguration"),
    ("description", .str "The configuration file as written by the user."),
    type "object",
    ("required", .strings ["version"]),
    ("properties", .obj [
      ("version", described "Which version of the configuration format are we using"
        (type "integer" :: unsigned "uint32")),
      ("$schema", described "Pointer to the JSON schema of this file, for editors."
        [nullable "string"]),
      ("databases", described "The databases requests may select, by the identifier they send." [
        ("default", .obj []), type "object",
        ("additionalProperties", reference "DatabaseSettings")]),
      ("defaultDatabase", described "The database used by requests that do not select one."
        [nullable "string"]),
      ("poolSettings", reference "PoolSettings"),
      ("querySettings", reference "QuerySettings")]),
    ("definitions", .obj [
      ("DatabaseSettings", databaseSettings),
      ("Secret", secret),
      ("PoolSettings", poolSettings),
      ("QuerySettings", querySettings)])]

end DataAgent.ConfigurationSchema
