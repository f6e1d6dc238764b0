import DataAgent.Compile.Basic
import DataAgent.Proofs.Request.Meaning

/-!
# Proofs — Request — Defects

What is wrong with a request: all its defects, in the order in which they are met from the root
(`Request.defects`), said over the request, its relationships and the limits of the settings alone.

A query that has aggregates and fields is walked twice, once for either. Some parts of a request have
no defects, whatever they are: what follows a relationship that is not there or too deep, and the
order and limits of queries.
-/

namespace DataAgent

open Sql

/-! ### Filters -/

/-- A relationship of a table that maps no columns. -/
def Relationship.mappingDefects (source name : String) (r : Relationship) : List CompileError :=
  if r.mapping.isEmpty then [.emptyMapping source name] else []

/-- The defect of a path from a table: the first relationship along it that is not there or maps no
columns. -/
def pathDefects (rels : List TableRelationships) : String → List String → List CompileError
  | _, [] => []
  | table, name :: path =>
    match relationshipOf rels table name with
    | none   => [.unknownRelationship table name]
    | some r =>
      if r.mapping.isEmpty then [.emptyMapping table name] else pathDefects rels r.target path

/-- The defect of a column: its path is too long, or has one. -/
def ColumnPath.defects (settings : QuerySettings) (rels : List TableRelationships) (table : String)
    (column : ColumnPath) : List CompileError :=
  if settings.maxPathLength < column.path.length then
    [.pathTooLong column.name column.path.length settings.maxPathLength]
  else pathDefects rels table column.path

/-- A value that a column is compared with and that is an array or an object. -/
def Json.defects (column : String) : Json → List CompileError
  | .arr items   => [.unsupportedValue (.arr items) column]
  | .obj members => [.unsupportedValue (.obj members) column]
  | .null | .bool _ | .num _ | .str _ => []

/-- The defects of what a column is compared with. -/
def Operand.defects (settings : QuerySettings) (rels : List TableRelationships)
    (table column : String) : Operand → List CompileError
  | .column other => other.defects settings rels table
  | .scalar value => value.defects column

/-- An operator that is none of those known. -/
def operatorDefects (known : List String) (operator column : String) : List CompileError :=
  if operator ∈ known then [] else [.unsupportedOperator operator column]

mutual

/-- The defects of a filter on the rows of a table. -/
def Filter.defects (settings : QuerySettings) (rels : List TableRelationships) (table : String) :
    Filter → List CompileError
  | .and filters | .or filters => Filter.listDefects settings rels table filters
  | .not filter => filter.defects settings rels table
  | .unary operator column =>
    operatorDefects ["is_null"] operator column.name ++ column.defects settings rels table
  | .binary operator column operand =>
    operatorDefects (comparisonNames.map Prod.fst) operator column.name ++
      column.defects settings rels table ++ operand.defects settings rels table column.name
  | .list operator column values =>
    operatorDefects ["in"] operator column.name ++ column.defects settings rels table ++
      values.flatMap (Json.defects column.name)

/-- The defects of filters, one after the other. -/
def Filter.listDefects (settings : QuerySettings) (rels : List TableRelationships)
    (table : String) : List Filter → List CompileError
  | [] => []
  | filter :: filters =>
    filter.defects settings rels table ++ Filter.listDefects settings rels table filters

end

/-! ### Queries -/

/-- An aggregate with a function that is not known. -/
def Aggregate.defects : Aggregate → List CompileError
  | .rowCount | .columnCount _ _ => []
  | .single column function =>
    if function ∈ ["avg", "sum", "min", "max"] then [] else [.unsupportedFunction function column]

mutual

/-- The defects of a query over the rows of a table, whose relationship fields are at a depth. Those
of the relationship that leads to the table are given. -/
def Query.defects (settings : QuerySettings) (rels : List TableRelationships) (depth : Nat)
    (table : String) (mapping : List CompileError) : Query → List CompileError
  | ⟨fields, aggregates, filter, _, _, _⟩ =>
    let choice := filter.elim [] (Filter.defects settings rels table) ++ mapping
    let rows := choice ++ fieldsDefects settings rels depth table fields
    match aggregates with
    | none => rows
    | some aggregates =>
      choice ++ aggregates.flatMap (fun a => a.2.defects) ++ (if fields.isNone then [] else rows)

/-- The defects of a query over the one row that an object relationship leads to: it has aggregates,
or those of its filter, of the relationship and of its fields. -/
def Query.objectDefects (settings : QuerySettings) (rels : List TableRelationships) (depth : Nat)
    (table relationship : String) (mapping : List CompileError) : Query → List CompileError
  | ⟨fields, aggregates, filter, _, _, _⟩ =>
    if aggregates.isSome then [.unsupportedAggregates relationship]
    else filter.elim [] (Filter.defects settings rels table) ++ mapping ++
      fieldsDefects settings rels depth table fields

/-- The defects of fields, if there are any. -/
def fieldsDefects (settings : QuerySettings) (rels : List TableRelationships) (depth : Nat)
    (table : String) : Option (List (String × Field)) → List CompileError
  | none        => []
  | some fields => memberDefects settings rels depth table fields

/-- The defects of fields, one after the other. -/
def memberDefects (settings : QuerySettings) (rels : List TableRelationships) (depth : Nat)
    (table : String) : List (String × Field) → List CompileError
  | [] => []
  | (_, field) :: fields =>
    field.defects settings rels depth table ++ memberDefects settings rels depth table fields

/-- The defects of a field of a table: a relationship that is too deep, or not there, or those of the
query over the rows it leads to, whose fields are one deeper. -/
def Field.defects (settings : QuerySettings) (rels : List TableRelationships) (depth : Nat)
    (table : String) : Field → List CompileError
  | .column _ => []
  | .relationship name query =>
    if settings.maxRelationshipDepth < depth then [.tooDeep settings.maxRelationshipDepth]
    else match relationshipOf rels table name with
      | none   => [.unknownRelationship table name]
      | some r =>
        let mapping := r.mappingDefects table name
        match r.kind with
        | .object => query.objectDefects settings rels (depth + 1) r.target name mapping
        | .array  => query.defects settings rels (depth + 1) r.target mapping

end

/-- The defects of a request. The fields of its query are at depth one. -/
def Request.defects (settings : QuerySettings) (r : Request) : List CompileError :=
  r.query.defects settings r.relationships 1 r.table []

end DataAgent
