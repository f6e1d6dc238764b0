import DataAgent.Json.Record
import DataAgent.Request.Encode

/-!
# Response — Schema

The schema of a database as a document: its tables with their keys and columns. The type of a
column is a name here; which names there are is for the catalog to say.
-/

namespace DataAgent

open Decode

/-- A column of a table. -/
structure ColumnSchema where
  name : String
  type : String
  nullable : Bool
  deriving DecidableEq, Repr

/-- A table. -/
structure TableSchema where
  name : String
  primaryKey : List String := []
  description : Option String := none
  columns : List ColumnSchema
  deriving DecidableEq, Repr

/-- The tables of a database. -/
structure SchemaResponse where
  tables : List TableSchema
  deriving DecidableEq, Repr

/-- A member that is left out when the list is empty. -/
def Json.memberIfAny {α : Type} (key : String) (f : List α → Json) (items : List α) :
    List (String × Json) :=
  if items.isEmpty then [] else [(key, f items)]

namespace ColumnSchema

/-- The column as a document. -/
def json (c : ColumnSchema) : Json :=
  .obj [("name", .str c.name), ("type", .str c.type), ("nullable", .bool c.nullable)]

/-- The column of a document. -/
def decoder : Decoder ColumnSchema :=
  record "ColumnInfo"
    (.cons (.required "name" string) <|
      .cons (.required "type" string) <|
      .cons (.required "nullable" boolean) .nil)
    fun (name, type, nullable, ()) => { name, type, nullable }

end ColumnSchema

namespace TableSchema

/-- The table as a document. -/
def json (t : TableSchema) : Json :=
  .obj ([("name", .str t.name)] ++
    Json.memberIfAny "primary_key" .strings t.primaryKey ++
    Json.memberIfSome "description" .str t.description ++
    [("columns", .arr (t.columns.map ColumnSchema.json))])

/-- The table of a document. -/
def decoder : Decoder TableSchema :=
  record "TableInfo"
    (.cons (.required "name" string) <|
      .cons (.withDefault "primary_key" (Decode.list string) []) <|
      .cons (.optional "description" string) <|
      .cons (.required "columns" (Decode.list ColumnSchema.decoder)) .nil)
    fun (name, primaryKey, description, columns, ()) =>
      { name, primaryKey, description, columns }

end TableSchema

namespace SchemaResponse

/-- The schema as a document. -/
def json (s : SchemaResponse) : Json := .obj [("tables", .arr (s.tables.map TableSchema.json))]

/-- The schema of a document. -/
def decoder : Decoder SchemaResponse :=
  record "SchemaResponse" (.cons (.required "tables" (Decode.list TableSchema.decoder)) .nil)
    fun (tables, ()) => { tables }

end SchemaResponse

end DataAgent
