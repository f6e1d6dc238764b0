import DataAgent.Json.Record
import DataAgent.Request.Encode

/-!
# Response — Rows

The answer to a query: its rows, or a row set with the aggregates over the rows and, if they
were asked for, the rows themselves.
-/

namespace DataAgent

open Decode

/-- A row, by the keys the request asked for. -/
abbrev Row := Members Json

/-- The answer to a query. -/
inductive QueryResponse
  | rows (rows : List Row)
  | rowSet (aggregates : Option (Members Json)) (rows : Option (List Row))
  deriving Repr

namespace QueryResponse

/-- The rows, if the answer has any to count. -/
def rows? : QueryResponse → Option (List Row)
  | .rows items     => some items
  | .rowSet _ items => items

/-- Rows as a document. -/
def rowsJson (items : List Row) : Json := .arr (items.map .obj)

/-- The answer as a document. -/
def json : QueryResponse → Json
  | .rows items => rowsJson items
  | .rowSet aggregates items =>
    .obj (Json.memberIfSome "aggregates" .obj aggregates ++
      Json.memberIfSome "rows" rowsJson items)

/-- Rows of a document. -/
def rowsDecoder : Decoder (List Row) := Decode.list (members any)

/-- A row set of a document. -/
def rowSetDecoder : Decoder QueryResponse :=
  record "RowSet"
    (.cons (.optional "aggregates" (members any)) <| .cons (.optional "rows" rowsDecoder) .nil)
    fun (aggregates, items, ()) => .rowSet aggregates items

/-- The answer of a document: rows if it is a list of them, else a row set. -/
def decoder : Decoder QueryResponse :=
  untagged "QueryResponse" fun node =>
    ((rowsDecoder .buffered node).toOption.map .rows) <|> (rowSetDecoder .buffered node).toOption

end QueryResponse

end DataAgent
