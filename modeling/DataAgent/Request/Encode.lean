import DataAgent.Request.Query

/-!
# Request — Encode

Requests as JSON documents. Members stand in the order of the types, a tag first; what is absent
is left out.
-/

namespace DataAgent

/-- A member that is left out when there is no value. -/
def Json.memberIfSome {α : Type} (key : String) (f : α → Json) : Option α → List (String × Json)
  | none   => []
  | some a => [(key, f a)]

/-- An array of strings. -/
def Json.strings (items : List String) : Json := .arr (items.map .str)

/-- A direction by name. -/
def Direction.json : Direction → Json
  | .asc  => .str "asc"
  | .desc => .str "desc"

/-- A kind of relationship by name. -/
def RelationshipKind.json : RelationshipKind → Json
  | .object => .str "object"
  | .array  => .str "array"

/-- A relationship. -/
def Relationship.json (r : Relationship) : Json :=
  .obj [("target_table", .str r.target), ("relationship_type", r.kind.json),
    ("column_mapping", .obj (r.mapping.map fun (source, target) => (source, .str target)))]

/-- The relationships of a table. -/
def TableRelationships.json (t : TableRelationships) : Json :=
  .obj [("source_table", .str t.source),
    ("relationships", .obj (t.relationships.map fun (name, r) => (name, r.json)))]

/-- A column with its path. -/
def ColumnPath.json (c : ColumnPath) : Json :=
  .obj [("path", .strings c.path), ("name", .str c.name)]

/-- An operand. -/
def Operand.json : Operand → Json
  | .column c => .obj [("type", .str "column"), ("column", c.json)]
  | .scalar v => .obj [("type", .str "scalar"), ("value", v)]

mutual

/-- A filter. -/
def Filter.json : Filter → Json
  | .and fs => .obj [("type", .str "and"), ("expressions", .arr (filtersJson fs))]
  | .or fs => .obj [("type", .str "or"), ("expressions", .arr (filtersJson fs))]
  | .not f => .obj [("type", .str "not"), ("expression", f.json)]
  | .unary op c =>
    .obj [("type", .str "unary_op"), ("operator", .str op), ("column", c.json)]
  | .binary op c operand =>
    .obj [("type", .str "binary_op"), ("operator", .str op), ("column", c.json),
      ("value", operand.json)]
  | .list op c values =>
    .obj [("type", .str "binary_arr_op"), ("operator", .str op), ("column", c.json),
      ("values", .arr values)]

/-- Filters. -/
def filtersJson : List Filter → List Json
  | [] => []
  | f :: rest => f.json :: filtersJson rest

end

/-- An aggregate. -/
def Aggregate.json : Aggregate → Json
  | .rowCount => .obj [("type", .str "star_count")]
  | .columnCount c distinct =>
    .obj [("type", .str "column_count"), ("column", .str c), ("distinct", .bool distinct)]
  | .single c function =>
    .obj [("type", .str "single_column"), ("column", .str c), ("function", .str function)]

/-- An order. -/
def OrderBy.json (o : OrderBy) : Json :=
  .obj [("column", .str o.column), ("direction", o.direction.json)]

/-- A natural. -/
def Json.nat (n : Nat) : Json := .num (.int n)

mutual

/-- A field. -/
def Field.json : Field → Json
  | .column c => .obj [("type", .str "column"), ("column", .str c)]
  | .relationship r query =>
    .obj [("type", .str "relationship"), ("relationship", .str r), ("query", query.json)]

/-- Fields by key. -/
def fieldsJson : List (String × Field) → List (String × Json)
  | [] => []
  | (key, f) :: rest => (key, f.json) :: fieldsJson rest

/-- The member of the fields. -/
def fieldsMember : Option (List (String × Field)) → List (String × Json)
  | none => []
  | some fields => [("fields", .obj (fieldsJson fields))]

/-- A query. -/
def Query.json : Query → Json
  | ⟨fields, aggregates, filter, orderBy, limit, offset⟩ =>
    .obj (fieldsMember fields ++
      Json.memberIfSome "aggregates"
        (fun as => .obj (as.map fun (key, a) => (key, a.json))) aggregates ++
      Json.memberIfSome "where" Filter.json filter ++
      Json.memberIfSome "order_by" (fun os => .arr (os.map OrderBy.json)) orderBy ++
      Json.memberIfSome "limit" Json.nat limit ++
      Json.memberIfSome "offset" Json.nat offset)

end

/-- A request. -/
def Request.json (r : Request) : Json :=
  .obj [("table", .str r.table), ("table_relationships", .arr (r.relationships.map (·.json))),
    ("query", r.query.json)]

end DataAgent
