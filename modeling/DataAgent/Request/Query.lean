import DataAgent.Json.Value

/-!
# Request — Query

Requests: a table, the relationships between tables, and a query, which selects fields of the
table's rows and aggregates over them. A relationship field holds a query of its own, over the
rows of another table that are related to the row at hand.
-/

namespace DataAgent

/-- The direction of an order. -/
inductive Direction
  | asc
  | desc
  deriving DecidableEq, Repr

/-- Whether a row has one related row or many. -/
inductive RelationshipKind
  | object
  | array
  deriving DecidableEq, Repr

/-- How rows of one table are related to rows of another: each column of the first on the left
equals the column of the second on the right. -/
structure Relationship where
  target : String
  kind : RelationshipKind
  mapping : Members String
  deriving DecidableEq, Repr

/-- The relationships of one table, by name. -/
structure TableRelationships where
  source : String
  relationships : Members Relationship
  deriving DecidableEq, Repr

/-- A column of the table at hand, or of one reached along relationships. -/
structure ColumnPath where
  path : List String := []
  name : String
  deriving DecidableEq, Repr

/-- What a column is compared with. -/
inductive Operand
  | column (column : ColumnPath)
  | scalar (value : Json)
  deriving Repr

/-- A condition on the rows of a table. Operators are names, which the compiler knows or not. -/
inductive Filter
  | and (filters : List Filter)
  | or (filters : List Filter)
  | not (filter : Filter)
  | unary (operator : String) (column : ColumnPath)
  | binary (operator : String) (column : ColumnPath) (operand : Operand)
  | list (operator : String) (column : ColumnPath) (values : List Json)
  deriving Repr

/-- A value computed from all rows of a query. -/
inductive Aggregate
  | rowCount
  | columnCount (column : String) (distinct : Bool)
  | single (column : String) (function : String)
  deriving DecidableEq, Repr

/-- A column to order by. -/
structure OrderBy where
  column : String
  direction : Direction
  deriving DecidableEq, Repr

mutual

/-- What a key of a row's object holds. -/
inductive Field
  | column (column : String)
  | relationship (relationship : String) (query : Query)

/-- A query over the rows of a table. -/
structure Query where
  fields : Option (List (String × Field)) := none
  aggregates : Option (List (String × Aggregate)) := none
  filter : Option Filter := none
  orderBy : Option (List OrderBy) := none
  limit : Option Nat := none
  offset : Option Nat := none

end

/-- A request. -/
structure Request where
  table : String
  relationships : List TableRelationships := []
  query : Query

end DataAgent
