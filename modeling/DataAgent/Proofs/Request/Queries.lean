import DataAgent.Proofs.Request.Meaning
import Mathlib

/-!
# Proofs — Request — Queries

The queries of a request, and how much there is of each. A request holds the query of its root and, in
fields at any depth, those of relationships (`Query.queries`). How a query is compiled depends on the
relationship that leads to it, which is found by the table that the query above is about
(`Query.placed`): a query that no relationship leads to has no place.

A query is compiled with a fixed number of aliases of its own, one for an order, and one for each
relationship along the paths of its filter, which is there twice where both aggregates and rows are
asked for (`PlacedQuery.aliasCost`).
-/

namespace DataAgent

/-! ### Paths -/

mutual

/-- The relationships along the paths of a filter, those of compared columns included. -/
def Filter.segments : Filter → Nat
  | .and filters | .or filters => Filter.listSegments filters
  | .not filter => filter.segments
  | .unary _ column | .list _ column _ => column.path.length
  | .binary _ column operand => column.path.length + operand.path.length

/-- The relationships along the paths of filters. -/
def Filter.listSegments : List Filter → Nat
  | []                => 0
  | filter :: filters => filter.segments + Filter.listSegments filters

end

/-- The relationships along the paths of a query's own filter. -/
def Query.segments (q : Query) : Nat := q.filter.elim 0 Filter.segments

/-! ### Parts -/

mutual

/-- The parts of a filter: filters, and values that a column may have. -/
def Filter.parts : Filter → Nat
  | .and filters | .or filters => 1 + Filter.listParts filters
  | .not filter => 1 + filter.parts
  | .unary _ _ | .binary _ _ _ => 1
  | .list _ _ values => 1 + values.length

/-- The parts of filters. -/
def Filter.listParts : List Filter → Nat
  | []                => 0
  | filter :: filters => filter.parts + Filter.listParts filters

end

/-- The parts of a query, without those of the queries in its fields: itself, its fields, aggregates
and orders, and the parts of its filter. -/
def Query.parts (q : Query) : Nat :=
  1 + (q.fields.getD []).length + (q.aggregates.getD []).length + (q.orderBy.getD []).length +
    q.filter.elim 0 Filter.parts

/-! ### Queries in a request -/

mutual

/-- The query and those of its fields, at any depth. -/
def Query.queries : Query → List Query
  | ⟨fields, aggregates, filter, orderBy, limit, offset⟩ =>
    ⟨fields, aggregates, filter, orderBy, limit, offset⟩ :: fieldsQueries fields

/-- The queries of fields, if there are any. -/
def fieldsQueries : Option (List (String × Field)) → List Query
  | none        => []
  | some fields => entryQueries fields

/-- The queries of fields, in their order. -/
def entryQueries : List (String × Field) → List Query
  | []                   => []
  | (_, field) :: fields => field.queries ++ entryQueries fields

/-- The queries of a field. -/
def Field.queries : Field → List Query
  | .column _             => []
  | .relationship _ query => query.queries

end

/-- The relationships along the paths of all filters of a request. -/
def Request.segments (r : Request) : Nat := (r.query.queries.map Query.segments).sum

/-- The parts of all queries of a request. -/
def Request.parts (r : Request) : Nat := (r.query.queries.map Query.parts).sum

/-- The most columns that a relationship of a request maps. -/
def Request.widestMapping (r : Request) : Nat :=
  ((r.relationships.flatMap TableRelationships.relationships).map fun member =>
    member.2.mapping.length).foldr max 0

/-- A query, and whether it is about one related row or many. -/
structure PlacedQuery where
  kind : RelationshipKind
  query : Query

mutual

/-- The query over a table and those of its fields, each with the kind of the relationship that leads
to it. -/
def Query.placed (rels : List TableRelationships) (kind : RelationshipKind) (table : String) :
    Query → List PlacedQuery
  | ⟨fields, aggregates, filter, orderBy, limit, offset⟩ =>
    { kind, query := ⟨fields, aggregates, filter, orderBy, limit, offset⟩ } ::
      fieldsPlaced rels table fields

/-- The queries of the fields of a table, if there are any. -/
def fieldsPlaced (rels : List TableRelationships) (table : String) :
    Option (List (String × Field)) → List PlacedQuery
  | none        => []
  | some fields => entryPlaced rels table fields

/-- The queries of the fields of a table, in their order. -/
def entryPlaced (rels : List TableRelationships) (table : String) :
    List (String × Field) → List PlacedQuery
  | []                   => []
  | (_, field) :: fields => field.placed rels table ++ entryPlaced rels table fields

/-- The queries of a field of a table. -/
def Field.placed (rels : List TableRelationships) (table : String) : Field → List PlacedQuery
  | .column _ => []
  | .relationship name query =>
    (relationshipOf rels table name).elim [] fun r => query.placed rels r.kind r.target

end

/-- The queries of a request. The one of the root is about many rows. -/
def Request.placed (r : Request) : List PlacedQuery :=
  r.query.placed r.relationships .array r.table

/-! ### Aliases -/

/-- The alias that an order takes, if there is one. -/
def Query.orderCost (q : Query) : Nat := if (q.orderBy.getD []).isEmpty then 0 else 1

/-- The aliases that a query takes, without those of the queries in its fields. -/
def PlacedQuery.aliasCost (p : PlacedQuery) : Nat :=
  let q := p.query
  match p.kind with
  | .object => 1 + q.segments
  | .array =>
    if q.aggregates.isNone then 2 + q.orderCost + q.segments
    else if q.fields.isNone then 2 + q.segments
    else 4 + q.orderCost + 2 * q.segments

theorem Query.orderCost_le (q : Query) : q.orderCost ≤ 1 := by
  unfold Query.orderCost
  split <;> omega

theorem PlacedQuery.aliasCost_le (p : PlacedQuery) : p.aliasCost ≤ 5 + 2 * p.query.segments := by
  have horder := p.query.orderCost_le
  unfold PlacedQuery.aliasCost
  cases p.kind with
  | object => grind
  | array => grind

mutual

/-- The queries that have a place are queries of the request, each once. -/
theorem Query.placed_sublist (rels : List TableRelationships) :
    ∀ (q : Query) (kind : RelationshipKind) (table : String),
      ((q.placed rels kind table).map PlacedQuery.query).Sublist q.queries
  | ⟨fields, _, _, _, _, _⟩, _, table => (fieldsPlaced_sublist rels fields table).cons_cons _

theorem fieldsPlaced_sublist (rels : List TableRelationships) :
    ∀ (fields : Option (List (String × Field))) (table : String),
      ((fieldsPlaced rels table fields).map PlacedQuery.query).Sublist (fieldsQueries fields)
  | none, _ => .slnil
  | some fields, table => entryPlaced_sublist rels fields table

theorem entryPlaced_sublist (rels : List TableRelationships) :
    ∀ (fields : List (String × Field)) (table : String),
      ((entryPlaced rels table fields).map PlacedQuery.query).Sublist (entryQueries fields)
  | [], _ => .slnil
  | (_, field) :: fields, table => by
    rw [entryPlaced, entryQueries, List.map_append]
    exact (Field.placed_sublist rels field table).append (entryPlaced_sublist rels fields table)

theorem Field.placed_sublist (rels : List TableRelationships) :
    ∀ (field : Field) (table : String),
      ((field.placed rels table).map PlacedQuery.query).Sublist field.queries
  | .column _, _ => .slnil
  | .relationship name query, table => by
    rw [Field.placed, Field.queries]
    cases relationshipOf rels table name with
    | none => exact List.nil_sublist _
    | some r => exact Query.placed_sublist rels query r.kind r.target

end

/-- Five for each query, and two for each relationship along a path of its filter. -/
def load (queries : List Query) : Nat := (queries.map fun q => 5 + 2 * q.segments).sum

theorem load_append (queries queries' : List Query) :
    load (queries ++ queries') = load queries + load queries' := by
  simp [load]

theorem load_queries (q : Query) :
    load q.queries = 5 + 2 * q.segments + load (fieldsQueries q.fields) := by
  obtain ⟨fields, _, _, _, _, _⟩ := q
  rw [Query.queries, load, List.map_cons, List.sum_cons, load]

theorem Request.load_eq (r : Request) :
    load r.query.queries = 5 * r.query.queries.length + 2 * r.segments := by
  rw [load, List.sum_map_add, List.sum_map_mul_left, List.map_const', List.sum_replicate,
    smul_eq_mul, Nat.mul_comm 5, Request.segments]

/-- A request takes at most five aliases a query, and two for each relationship along a path. -/
theorem Request.aliasCost_le (r : Request) :
    (r.placed.map PlacedQuery.aliasCost).sum ≤ load r.query.queries := by
  have hplaced : (r.placed.map PlacedQuery.query).Sublist r.query.queries :=
    Query.placed_sublist r.relationships r.query .array r.table
  calc (r.placed.map PlacedQuery.aliasCost).sum
      ≤ (r.placed.map fun p => 5 + 2 * p.query.segments).sum :=
        List.sum_le_sum fun p _ => p.aliasCost_le
    _ = ((r.placed.map PlacedQuery.query).map fun q => 5 + 2 * q.segments).sum := by
        rw [List.map_map]
        rfl
    _ ≤ (r.query.queries.map fun q => 5 + 2 * q.segments).sum :=
        (hplaced.map _).sum_le_sum fun _ _ => Nat.zero_le _

end DataAgent
