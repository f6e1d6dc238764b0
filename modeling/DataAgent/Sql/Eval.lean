import DataAgent.Json.Decode
import DataAgent.Sql.Check

/-!
# Sql — Eval

The rows of a select over a database. A select takes the rows of its source and joins, keeps
those whose condition is true, and yields its list for each of them, ordered and paged, or, if
the list has an aggregate, once for all of them. Selects inside expressions see the rows of the
selects around them, and one that stands for a value has only its first row computed.

Names that are not known give null: `Database.run` checks them first.
-/

namespace DataAgent.Sql

/-- The rows at hand, by alias, innermost select first. -/
abbrev Env := List (TableAlias × Tuple)

/-- Where an expression is evaluated: the rows at hand, and for aggregates all rows of the
select. -/
structure Frame where
  env : Env
  group : List Env := []

namespace Datum

/-- A cell that is from no column. -/
def ofCell (c : Cell) : Datum := { content := .cell c }

/-- A truth value. -/
def ofTruth (b : Option Bool) : Datum := .ofCell (.ofTruth b)

/-- A document that was just built. -/
def ofJson (j : Json) : Datum := { content := .document j true }

/-- The value as a cell. -/
def cell (d : Datum) : Cell := d.content.toCell

/-- The truth of the value. -/
def truth (d : Datum) : Option Bool := d.cell.truth

/-- The value outside the select that built it. -/
def untyped (d : Datum) : Datum := { d with content := d.content.untyped }

/-- A comparison of two values. -/
def compare (op : Comparison) (l r : Datum) : Option Bool :=
  op.apply l.affinity r.affinity l.cell r.cell

end Datum

/-- The value of a column in a row. -/
def Tuple.get (t : Tuple) (name : String) : Datum :=
  ((t.find? fun c => sameName c.1 name).map (·.2)).getD (.ofCell .null)

/-- The value of a column of the rows at hand. -/
def Env.column (env : Env) (c : ColumnRef) : Datum :=
  let (table, name) := c.parts
  (table.find? env).elim (.ofCell .null) fun t => t.get name

mutual

/-- The expression computes an aggregate over the rows of its own select. -/
def Expr.isAggregate : Expr → Bool
  | .and left right       => left.isAggregate || right.isAggregate
  | .or left right        => left.isAggregate || right.isAggregate
  | .not operand          => operand.isAggregate
  | .compare _ left right => left.isAggregate || right.isAggregate
  | .isIn operand options => operand.isAggregate || anyAggregate options
  | .isNull operand       => operand.isAggregate
  | .call .json args      => anyAggregate args
  | .call .jsonArray args => anyAggregate args
  | .call _ _             => true
  | .object entries       => anyAggregateEntry entries
  | .count _              => true
  | .tagged _ operand     => operand.isAggregate
  | .existsRow _          => false
  | .column _             => false
  | .value _              => false
  | .subselect _          => false

/-- One of the expressions computes an aggregate. -/
def anyAggregate : List Expr → Bool
  | []      => false
  | e :: es => e.isAggregate || anyAggregate es

/-- One of the named expressions computes an aggregate. -/
def anyAggregateEntry : List (String × Expr) → Bool
  | []           => false
  | (_, e) :: es => e.isAggregate || anyAggregateEntry es

end

/-- The select list computes an aggregate. -/
def SelectList.isAggregate : SelectList → Bool
  | .items entries => anyAggregateEntry entries
  | .star          => false
  | .one           => false

/-- A text as JSON. -/
def readJson (d : Datum) : Except EngineError Datum :=
  match d.content with
  | .document j _ => .ok (.ofJson j)
  | .cell .null   => .ok (.ofCell .null)
  | .cell c       =>
    match c.toText with
    | .text s =>
      match decodeString Decode.any s with
      | .ok j    => .ok (.ofJson j)
      | .error _ => .error .malformedJson
    | _ => .error .malformedJson

/-- An aggregate of the values of an expression over all rows. -/
def aggregateOf (f : Function) (values : List Datum) : Except EngineError Datum :=
  let cells := values.map Datum.cell
  match f with
  | .jsonGroupArray => .ok (.ofJson (.arr (values.map fun d => d.content.embed)))
  | .avg            => .ok (.ofCell (Aggregate.avg cells))
  | .sum            => return .ofCell (← Aggregate.sum cells)
  | .min            => .ok (.ofCell (Aggregate.min cells))
  | .max            => .ok (.ofCell (Aggregate.max cells))
  | .json           => .error .wrongArguments
  | .jsonArray      => .error .wrongArguments

/-- What is counted over all rows. -/
def Count.eval (group : List Env) : Count → Cell
  | .rows       => .int group.length
  | .values c   => Aggregate.count (group.map fun env => (env.column c).cell)
  | .distinct c => Aggregate.countDistinct (group.map fun env => (env.column c).cell)

/-- The rows of a table, each bound to an alias. -/
def Database.bind (db : Database) (t : TableRef) (label : TableAlias) : List Env :=
  ((db.table? t.tableName).elim [] Table.tuples).map fun tuple => [(label, tuple)]

/-- Every row with every row of the joined tables. -/
def Database.join (db : Database) (rows : List Env) : List CrossJoin → List Env
  | []         => rows
  | j :: joins =>
    db.join (rows.flatMap fun row => (db.bind j.table j.label).map (row ++ ·)) joins

/-- The rows for which a condition is true. -/
def keepRows (condition : Env → Except EngineError Bool) : List Env → Except EngineError (List Env)
  | []          => return []
  | row :: rows => do
    if ← condition row then return row :: (← keepRows condition rows)
    else keepRows condition rows

/-- One key comes before, or not after, another, each part in its direction. -/
def keyLe : List (Cell × Direction) → List (Cell × Direction) → Bool
  | (a, d) :: as, (b, _) :: bs =>
    match a.compare b, d with
    | .eq, _     => keyLe as bs
    | .lt, .asc  => true
    | .gt, .desc => true
    | _,   _     => false
  | _, _ => true

/-- The rows in the order of their keys; rows with equal keys stay as they are. -/
def orderRows (key : Env → Except EngineError (List (Cell × Direction))) (rows : List Env) :
    Except EngineError (List Env) := do
  let keyed ← rows.mapM fun row => return (← key row, row)
  return (keyed.mergeSort fun a b => keyLe a.1 b.1).map (·.2)

/-- The part of a list that a limit keeps. -/
def Limit.page {α : Type} (l : Limit) (items : List α) : List α :=
  let rest := items.drop (l.offset.getD 0)
  match l.limit with
  | none   => rest
  | some n => rest.take n

mutual

/-- The value of an expression. -/
def Expr.eval (db : Database) (f : Frame) : Expr → Except EngineError Datum
  | .and left right => do
    return .ofTruth (bothHold (← left.eval db f).truth (← right.eval db f).truth)
  | .or left right => do
    return .ofTruth (eitherHolds (← left.eval db f).truth (← right.eval db f).truth)
  | .not operand => do return .ofTruth ((← operand.eval db f).truth.map (!·))
  | .compare op left right => do
    return .ofTruth (Datum.compare op (← left.eval db f) (← right.eval db f))
  | .isIn operand options => do
    let d ← operand.eval db f
    let found := (← evalList db f options).foldl
      (fun b option => eitherHolds b (d.compare .equal option)) (some false)
    return .ofTruth found
  | .isNull operand => do return .ofTruth (some ((← operand.eval db f).cell = .null))
  | .call .json [operand] => do readJson (← operand.eval db f)
  | .call .jsonArray args => do
    return .ofJson (.arr ((← evalList db f args).map fun d => d.content.embed))
  | .call function [operand] => do
    aggregateOf function (← f.group.mapM fun env => operand.eval db { env })
  | .call _ _ => .error .wrongArguments
  | .existsRow select => do return .ofTruth (some !(← select.eval db f.env).isEmpty)
  | .object entries => do
    return .ofJson (.obj ((← evalItems db f entries).map fun (key, d) => (key, d.content.embed)))
  | .column column => return f.env.column column
  | .value value => return .ofCell (.ofValue value)
  | .count count => return .ofCell (count.eval f.group)
  | .subselect select => do
    match (← select.eval db f.env).head? with
    | none => return .ofCell .null
    | some row => return (← row).head?.elim (.ofCell .null) (·.2.untyped)
  | .tagged _ operand => operand.eval db f

/-- The values of expressions. -/
def evalList (db : Database) (f : Frame) : List Expr → Except EngineError (List Datum)
  | []      => return []
  | e :: es => return (← e.eval db f) :: (← evalList db f es)

/-- The values of named expressions. -/
def evalItems (db : Database) (f : Frame) : List (String × Expr) → Except EngineError Tuple
  | []              => return []
  | (name, e) :: es => return (name, ← e.eval db f) :: (← evalItems db f es)

/-- The key of a row. -/
def evalKey (db : Database) (f : Frame) :
    List (Expr × Direction) → Except EngineError (List (Cell × Direction))
  | []           => return []
  | (e, d) :: es => return ((← e.eval db f).cell, d) :: (← evalKey db f es)

/-- The row that a select list yields; `own` are the rows of its own select. -/
def SelectList.eval (db : Database) (own : Env) (f : Frame) :
    SelectList → Except EngineError Tuple
  | .items items => evalItems db f items
  | .star        => return own.flatMap (·.2)
  | .one         => return [("1", .ofCell (.int 1))]

/-- The rows of a source, each bound to its alias. -/
def Source.eval (db : Database) (outer : Env) : Source → Except EngineError (List Env)
  | .table table label   => return db.bind table label
  | .select select label => do
    return (← (← select.eval db outer).mapM id).map fun tuple =>
      [(label, tuple.map fun (name, d) => (name, d.untyped))]

/-- The rows of a source; without one there is a single row without columns. -/
def evalSource (db : Database) (outer : Env) : Option Source → Except EngineError (List Env)
  | none        => return [[]]
  | some source => source.eval db outer

/-- The rows of a select. What a row holds may fail, and fails whoever reads that row. -/
def Select.eval (db : Database) (outer : Env) :
    Select → Except EngineError (List (Except EngineError Tuple))
  | { list, source, joins, condition, orderBy, limit } => do
    let all := db.join (← evalSource db outer source) joins
    let rows ← keepRows
      (fun row => return (← condition.eval db { env := row ++ outer }).truth == some true) all
    if list.isAggregate then
      let first := rows.head?.getD []
      let group := rows.map (· ++ outer)
      return limit.page [list.eval db first { env := first ++ outer, group }]
    else
      let rows ← orderRows (fun row => evalKey db { env := row ++ outer } orderBy) rows
      return (limit.page rows).map fun row => list.eval db row { env := row ++ outer }

end

/-- The rows of a statement, if all names in it are known. -/
def Database.run (db : Database) (s : Select) : Except EngineError (List Tuple) := do
  let _ ← s.check db []
  (← s.eval db []).mapM id

end DataAgent.Sql
