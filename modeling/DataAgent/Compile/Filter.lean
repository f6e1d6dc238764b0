import DataAgent.Compile.Basic

/-!
# Compile — Filter

Filters as conditions on the rows of a bound table. A comparison whose columns are reached along
relationships becomes the existence of rows that are related as the paths say and for which the
comparison holds.
-/

namespace DataAgent.Compile

/-- The comparison of two values, by name. -/
def comparisonOf (operator column : String) : Except CompileError Sql.Comparison :=
  match operator with
  | "equal" => .ok .equal
  | "greater_than" => .ok .greater
  | "greater_than_or_equal" => .ok .greaterOrEqual
  | "less_than" => .ok .less
  | "less_than_or_equal" => .ok .lessOrEqual
  | _ => .error (.unsupportedOperator operator column)

/-- The only comparison with a list is membership. -/
def checkListOperator (operator column : String) : Except CompileError Unit :=
  if operator = "in" then .ok () else .error (.unsupportedOperator operator column)

/-- The only test of one value is for null. -/
def checkUnaryOperator (operator column : String) : Except CompileError Unit :=
  if operator = "is_null" then .ok () else .error (.unsupportedOperator operator column)

/-- The constant of a scalar. An integer beyond sixty-four bits with a sign is a double. -/
def scalar (column : String) : Json → Except CompileError Sql.Value
  | .null => .ok .null
  | .bool b => .ok (.bool b)
  | .str s => .ok (.string s)
  | .num (.int n) =>
    .ok (if -Int.pow 2 63 ≤ n ∧ n < Int.pow 2 63 then .int n else .double (.ofInt n))
  | .num (.double x) => .ok (.double x)
  | value => .error (.unsupportedValue value column)

/-- The tables a comparison reaches, and how they are joined to the table it is about. -/
structure Reach where
  tables : List BoundTable := []
  joins : Sql.Expr := .always

namespace Reach

/-- The comparison, or the existence of the rows it reaches for which it holds. -/
def existence (c : Context) (reach : Reach) (comparison : Sql.Expr) : Sql.Expr :=
  match reach.tables with
  | [] => comparison
  | first :: others =>
    c.tag "exists" (.existsRow
      { list := .one
        source := some first.source
        joins := others.map BoundTable.join
        condition := reach.joins.conj comparison })

end Reach

/-- The table at the end of a path that starts at a table. -/
def followPath (c : Context) : BoundTable → List String → Reach → Compile (BoundTable × Reach)
  | table, [], reach => pure (table, reach)
  | table, name :: path, reach => do
    let relationship ← ofExcept (c.lookup table.name name)
    let target ← bindTable relationship.target
    let join ← ofExcept (joinCondition table target name relationship)
    followPath c target path
      { tables := reach.tables ++ [target], joins := reach.joins.conj join }

/-- The column a path leads to. -/
def columnAt (c : Context) (table : BoundTable) (column : ColumnPath) (reach : Reach) :
    Compile (Sql.Expr × Reach) := do
  if c.settings.maxPathLength < column.path.length then
    throw (.pathTooLong column.name column.path.length c.settings.maxPathLength)
  let (last, reach) ← followPath c table column.path reach
  return (c.tag "bop_col" (last.column column.name), reach)

/-- What a column is compared with. -/
def operandAt (c : Context) (table : BoundTable) (column : String) (reach : Reach) :
    Operand → Compile (Sql.Expr × Reach)
  | .column other => do
    let (e, reach) ← columnAt c table other reach
    return (c.tag "bop_val" e, reach)
  | .scalar value => do
    let v ← ofExcept (scalar column value)
    return (c.tag "bop_val" (.value v), reach)

/-- The values a column may have. -/
def options (c : Context) (column : String) (values : List Json) :
    Except CompileError (List Sql.Expr) :=
  values.mapM fun value => return c.tag "bop_val" (.value (← scalar column value))

/-- The disjunction of conditions; of none it is false. -/
def disjunction : List Sql.Expr → Sql.Expr
  | [] => .never
  | e :: es => es.foldl .or e

mutual

/-- The condition of a filter on the rows of a table. -/
def filterCondition (c : Context) (table : BoundTable) : Filter → Compile Sql.Expr
  | .and filters => return (← filterConditions c table filters).foldl .conj .always
  | .or filters => return disjunction (← filterConditions c table filters)
  | .not filter => return .not (← filterCondition c table filter)
  | .unary operator column => do
    ofExcept (checkUnaryOperator operator column.name)
    let (e, reach) ← columnAt c table column {}
    return reach.existence c (.isNull e)
  | .binary operator column operand => do
    let comparison ← ofExcept (comparisonOf operator column.name)
    let (left, reach) ← columnAt c table column {}
    let (right, reach) ← operandAt c table column.name reach operand
    return reach.existence c (.compare comparison left right)
  | .list operator column values => do
    ofExcept (checkListOperator operator column.name)
    let (e, reach) ← columnAt c table column {}
    let values ← ofExcept (options c column.name values)
    return reach.existence c (if values.isEmpty then .never else .isIn e values)

/-- The conditions of filters, in order. -/
def filterConditions (c : Context) (table : BoundTable) : List Filter → Compile (List Sql.Expr)
  | [] => return []
  | filter :: filters =>
    return (← filterCondition c table filter) :: (← filterConditions c table filters)

end

end DataAgent.Compile
