import DataAgent.Request.Query

/-!
# Sql — Expr

The statements the agent sends: selects, whose clauses hold expressions, which may hold selects.
A table is bound to an alias, a name with an index that no other alias of the statement has.
-/

namespace DataAgent.Sql

/-- A name for the rows of one `FROM` or join item. -/
structure TableAlias where
  name : String
  index : Nat
  deriving DecidableEq, Repr

/-- A table of the database, or one bound to an alias. -/
inductive TableRef
  | table (name : String)
  | aliased (label : TableAlias)
  deriving DecidableEq, Repr

/-- A column of a stored table, or one that a derived table gives a name to. -/
inductive ColumnRef
  | stored (table : TableRef) (name : String)
  | derived (table : TableRef) (name : String)
  deriving DecidableEq, Repr

/-- A constant. -/
inductive Value
  | int (value : Int)
  | double (value : Double)
  | bool (value : Bool)
  | string (value : String)
  | null
  deriving DecidableEq, Repr

/-- A comparison of two values. -/
inductive Comparison
  | equal
  | greater
  | greaterOrEqual
  | less
  | lessOrEqual
  deriving DecidableEq, Repr

/-- A function of the database. -/
inductive Function
  | json
  | jsonArray
  | jsonGroupArray
  | avg
  | sum
  | min
  | max
  deriving DecidableEq, Repr

/-- What is counted: rows, values of a column, or distinct values of it. -/
inductive Count
  | rows
  | values (column : ColumnRef)
  | distinct (column : ColumnRef)
  deriving DecidableEq, Repr

/-- How many rows to keep, and how many to drop before. -/
structure Limit where
  limit : Option Nat := none
  offset : Option Nat := none
  deriving DecidableEq, Repr

/-- A table joined to those before it, every row with every row. -/
structure CrossJoin where
  table : TableRef
  label : TableAlias
  deriving DecidableEq, Repr

mutual

/-- An expression. -/
inductive Expr
  | and (left right : Expr)
  | or (left right : Expr)
  | not (operand : Expr)
  | compare (op : Comparison) (left right : Expr)
  | isIn (operand : Expr) (options : List Expr)
  | isNull (operand : Expr)
  | call (function : Function) (args : List Expr)
  | existsRow (select : Select)
  | object (entries : List (String × Expr))
  | column (column : ColumnRef)
  | value (value : Value)
  | count (count : Count)
  | subselect (select : Select)
  /-- An expression between comments. -/
  | tagged (tag : String) (operand : Expr)

/-- What a select yields for each row. -/
inductive SelectList
  | items (items : List (String × Expr))
  | star
  | one

/-- Where a select takes its rows from. -/
inductive Source
  | table (table : TableRef) (label : TableAlias)
  | select (select : Select) (label : TableAlias)

/-- A select. -/
structure Select where
  list : SelectList
  source : Option Source := none
  joins : List CrossJoin := []
  condition : Expr
  orderBy : List (Expr × Direction) := []
  limit : Limit := {}

end

namespace Expr

/-- The constant that is true, which stands for no condition at all. -/
def always : Expr := .value (.bool true)

/-- The constant that is false. -/
def never : Expr := .value (.bool false)

/-- The expression is the constant that is true. -/
def isTrue : Expr → Bool
  | .value (.bool true) => true
  | _ => false

/-- The conjunction of two conditions, without a constant that is true. -/
def conj (left right : Expr) : Expr :=
  if left.isTrue then right else if right.isTrue then left else .and left right

/-- The operand as JSON. -/
def asJson (operand : Expr) : Expr := .call .json [operand]

end Expr

/-- A select of the items without any clause. -/
def Select.ofItems (items : List (String × Expr)) : Select :=
  { list := .items items, condition := .always }

end DataAgent.Sql
