import DataAgent.Catalog.ScalarType
import DataAgent.Config.Settings
import DataAgent.Response.Schema

/-!
# Catalog — Table

What the agent knows of a table, and which tables a client gets to see.
-/

namespace DataAgent

open Decode

/-- A column of a table. -/
structure ColumnInfo where
  name : String
  type : ScalarType
  nullable : Bool
  deriving DecidableEq, Repr

/-- A table. The description is the statement that created it. -/
structure TableInfo where
  name : String
  primaryKey : List String
  description : Option String
  columns : List ColumnInfo
  deriving DecidableEq, Repr

namespace ColumnInfo

/-- The column as a document. -/
def json (c : ColumnInfo) : Json :=
  .obj [("name", .str c.name), ("type", .str c.type.name), ("nullable", .bool c.nullable)]

/-- The column of a document. -/
def decoder : Decoder ColumnInfo :=
  record "ColumnInfo"
    (.cons (.required "name" string) <|
      .cons (.required "type" ScalarType.decoder) <|
      .cons (.required "nullable" boolean) .nil)
    fun (name, type, nullable, ()) => { name, type, nullable }

/-- The column as clients see it. -/
def schema (c : ColumnInfo) : ColumnSchema :=
  { name := c.name, type := c.type.name, nullable := c.nullable }

end ColumnInfo

namespace TableInfo

/-- The table as a document. -/
def json (t : TableInfo) : Json :=
  .obj [("name", .str t.name), ("primary_key", .strings t.primaryKey),
    ("description", .ofOption .str t.description),
    ("columns", .arr (t.columns.map ColumnInfo.json))]

/-- The table of a document. The description may be missing from an object, and null. -/
def decoder : Decoder TableInfo :=
  record "TableInfo"
    (.cons (.required "name" string) <|
      .cons (.required "primary_key" (Decode.list string)) <|
      .cons { name := "description", decode := nullable string, absent := some none } <|
      .cons (.required "columns" (Decode.list ColumnInfo.decoder)) .nil)
    fun (name, primaryKey, description, columns, ()) =>
      { name, primaryKey, description, columns }

/-- The table as clients see it. -/
def schema (t : TableInfo) : TableSchema :=
  { name := t.name, primaryKey := t.primaryKey, description := t.description
    columns := t.columns.map ColumnInfo.schema }

end TableInfo

/-- The names that the database, and the indexes of some of its samples, keep for themselves. -/
def metaPrefixes : List String := ["sqlite_", "IFK_"]

/-- The table is one of those that hold no data of the user. -/
def isMetaTable (name : String) : Bool := metaPrefixes.any fun p => name.startsWith p

/-- Which tables are reported. -/
structure TableFilter where
  /-- Only these, if given, whatever they hold. -/
  tables : Option (List String) := none
  /-- Also tables that hold no data of the user. -/
  includeMeta : Bool := false
  deriving DecidableEq, Repr

/-- The table is reported. -/
def TableFilter.includes (f : TableFilter) (name : String) : Bool :=
  match f.tables with
  | some names => names.contains name
  | none       => f.includeMeta || !isMetaTable name

end DataAgent
