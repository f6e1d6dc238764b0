import DataAgent.Json.Record
import DataAgent.Request.Encode

/-!
# Config — Connector

The settings that a request carries in a header of its own: which database it is for, and which
tables a schema reports.
-/

namespace DataAgent

open Decode

/-- The settings of one request. -/
structure ConnectorConfig where
  /-- The database to query, one of those the agent was configured with. -/
  db : Option String := none
  /-- The only tables that a schema reports. -/
  tables : Option (List String) := none
  /-- A schema also reports tables that hold no data of the user. -/
  includeMeta : Bool := false
  deriving DecidableEq, Repr

namespace ConnectorConfig

/-- The header that carries the settings. -/
def headerName : String := "X-Hasura-DataConnector-Config"

/-- The settings as a document. -/
def json (c : ConnectorConfig) : Json :=
  .obj (Json.memberIfSome "db" .str c.db ++ Json.memberIfSome "tables" .strings c.tables ++
    [("meta", .bool c.includeMeta)])

/-- The settings of a document. -/
def decoder : Decoder ConnectorConfig :=
  record "ConnectorConfig"
    (.cons (.optional "db" string) <|
      .cons (.optional "tables" (Decode.list string)) <|
      .cons (.withDefault "meta" boolean false) .nil)
    fun (db, tables, includeMeta, ()) => { db, tables, includeMeta }

/-- The settings of a request, by the text of its header if it has one. -/
def ofHeader : Option Text → Except DecodeError ConnectorConfig
  | none      => .ok {}
  | some text => decodeText decoder text

/-- The wording of an error in the header. -/
def errorMessage (e : DecodeError) : String :=
  "invalid " ++ headerName ++ " header: " ++ e.message

/-- The schema of the document. -/
def schema : Json :=
  .obj [("title", .str "ConnectorConfig"),
    ("description", .str "Per-request connector configuration."),
    ("type", .str "object"),
    ("properties", .obj [
      ("db", .obj [
        ("description", .str ("Identifier of the database to query. It must be one of the " ++
          "databases the connector was configured with.")),
        ("type", .strings ["string", "null"])]),
      ("tables", .obj [
        ("description", .str "Restrict the schema to these tables."),
        ("type", .strings ["array", "null"]),
        ("items", .obj [("type", .str "string")])]),
      ("meta", .obj [
        ("description", .str "Include SQLite meta tables in the schema."),
        ("default", .bool false),
        ("type", .str "boolean")])])]

end ConnectorConfig

end DataAgent
