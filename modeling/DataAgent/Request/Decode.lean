import DataAgent.Json.Record
import DataAgent.Request.Query

/-!
# Request — Decode

Decoders of requests. Fields and filters nest; each nesting of one is a nesting of its text, so
as many levels as a text may have suffice (`Request.levels`).
-/

namespace DataAgent

open Decode

/-- The direction of an order, by name. -/
def Direction.decoder : Decoder Direction := choice [("asc", .asc), ("desc", .desc)]

/-- A kind of relationship, by name. -/
def RelationshipKind.decoder : Decoder RelationshipKind :=
  choice [("object", .object), ("array", .array)]

/-- A relationship. -/
def Relationship.decoder : Decoder Relationship :=
  record "Relationship"
    (.cons (.required "target_table" string) <|
      .cons (.required "relationship_type" RelationshipKind.decoder) <|
      .cons (.required "column_mapping" (members string)) .nil)
    fun (target, kind, mapping, ()) => { target, kind, mapping }

/-- The relationships of a table. -/
def TableRelationships.decoder : Decoder TableRelationships :=
  record "TableRelationships"
    (.cons (.required "source_table" string) <|
      .cons (.required "relationships" (members Relationship.decoder)) .nil)
    fun (source, relationships, ()) => { source, relationships }

/-- A column with its path. -/
def ColumnPath.decoder : Decoder ColumnPath :=
  record "ComparisonColumn"
    (.cons (.withDefault "path" (list string) []) <| .cons (.required "name" string) .nil)
    fun (path, name, ()) => { path, name }

/-- An operand. -/
def Operand.decoder : Decoder Operand :=
  tagged "ComparisonValue"
    [.record "column" "ComparisonValue::Column"
        (.cons (.required "column" ColumnPath.decoder) .nil) fun (path, ()) => .column path,
      .record "scalar" "ComparisonValue::Scalar"
        (.cons (.required "value" any) .nil) fun (value, ()) => .scalar value]

/-- The operator and the column of a comparison. -/
def comparisonSlots {αs : List Type} (rest : Layout αs) : Layout (String :: ColumnPath :: αs) :=
  .cons (.required "operator" string) <| .cons (.required "column" ColumnPath.decoder) rest

/-- A filter of so many levels. -/
def Filter.decoder : Nat → Decoder Filter
  | 0, _, _ => .error (.malformed .tooDeep none)
  | levels + 1, m, node =>
    tagged "Expression"
      [.record "and" "Expression::And"
          (.cons (.required "expressions" (Decode.list (Filter.decoder levels))) .nil)
          fun (filters, ()) => .and filters,
        .record "or" "Expression::Or"
          (.cons (.required "expressions" (Decode.list (Filter.decoder levels))) .nil)
          fun (filters, ()) => .or filters,
        .record "not" "Expression::Not"
          (.cons (.required "expression" (Filter.decoder levels)) .nil)
          fun (filter, ()) => .not filter,
        .record "unary_op" "Expression::UnaryOp" (comparisonSlots .nil)
          fun (operator, column, ()) => .unary operator column,
        .record "binary_op" "Expression::BinaryOp"
          (comparisonSlots (.cons (.required "value" Operand.decoder) .nil))
          fun (operator, column, operand, ()) => .binary operator column operand,
        .record "binary_arr_op" "Expression::BinaryArrOp"
          (comparisonSlots (.cons (.required "values" (Decode.list any)) .nil))
          fun (operator, column, values, ()) => .list operator column values]
      m node

/-- An aggregate. -/
def Aggregate.decoder : Decoder Aggregate :=
  tagged "Aggregate"
    [.unit "star_count" .rowCount,
      .record "column_count" "Aggregate::ColumnCount"
        (.cons (.required "column" string) <|
          .cons (.withDefault "distinct" boolean false) .nil)
        fun (column, distinct, ()) => .columnCount column distinct,
      .record "single_column" "Aggregate::SingleColumn"
        (.cons (.required "column" string) <| .cons (.required "function" string) .nil)
        fun (column, function, ()) => .single column function]

/-- An order. The direction has an older name. -/
def OrderBy.decoder : Decoder OrderBy :=
  record "OrderBy"
    (.cons (.required "column" string) <|
      .cons { name := "direction", aliases := ["ordering"], decode := Direction.decoder } .nil)
    fun (column, direction, ()) => { column, direction }

/-- The levels of nesting a text may have. -/
def Request.levels : Nat := Node.depthLimit + 1

/-- A query, given the decoder of its fields. -/
def Query.decoderOf (field : Decoder Field) : Decoder Query :=
  record "Query"
    (.cons (.optional "fields" (members field)) <|
      .cons (.optional "aggregates" (members Aggregate.decoder)) <|
      .cons (.optional "where" (Filter.decoder Request.levels)) <|
      .cons (.optional "order_by" (Decode.list OrderBy.decoder)) <|
      .cons (.optional "limit" (unsigned 32)) <|
      .cons (.optional "offset" (unsigned 32)) .nil)
    fun (fields, aggregates, filter, orderBy, limit, offset, ()) =>
      { fields, aggregates, filter, orderBy, limit, offset }

/-- A field of so many levels. -/
def Field.decoder : Nat → Decoder Field
  | 0, _, _ => .error (.malformed .tooDeep none)
  | levels + 1, m, node =>
    tagged "Field"
      [.record "column" "Field::Column" (.cons (.required "column" string) .nil)
          fun (name, ()) => .column name,
        .record "relationship" "Field::Relationship"
          (.cons (.required "relationship" string) <|
            .cons (.required "query" (Query.decoderOf (Field.decoder levels))) .nil)
          fun (name, query, ()) => .relationship name query]
      m node

/-- A query. -/
def Query.decoder : Decoder Query := Query.decoderOf (Field.decoder Request.levels)

/-- A request. -/
def Request.decoder : Decoder Request :=
  record "QueryRequest"
    (.cons (.required "table" string) <|
      .cons (.withDefault "table_relationships" (Decode.list TableRelationships.decoder) []) <|
      .cons (.required "query" Query.decoder) .nil)
    fun (table, relationships, query, ()) => { table, relationships, query }

end DataAgent
