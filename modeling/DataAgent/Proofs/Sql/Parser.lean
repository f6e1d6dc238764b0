import DataAgent.Proofs.Sql.Lexer
import DataAgent.Sql.Expr

/-!
# Proofs — Sql — Parser

Selects as the database reads them. A tree (`Parsed.Select`) holds what the tokens of a select say:
names as they are written, parameters by their numbers, and no trace of comments or parentheses. A
select without a condition has the constant true for it.

An operand is followed by operators that bind at least as strongly as the place it stands in asks
for (`Parser.expr`, `Parser.operators`). `OR` binds most weakly, then `AND`, then `NOT`, then `=`,
`IN` and `IS NULL`, then the other comparisons, and operators that bind equally group to the left.
Every second step reads a token, so twice the number of tokens bounds the depth of the recursion
(`parse`).
-/

namespace DataAgent.Sql

/-! ### Trees -/

namespace Parsed

/-- A column, with the name of its table. -/
structure Column where
  table : String
  name : String
  deriving DecidableEq, Repr

/-- What is counted. -/
inductive Count
  | rows
  | values (column : Column)
  | distinct (column : Column)
  deriving DecidableEq, Repr

/-- A table, and the name it is given. -/
structure Table where
  name : String
  label : String
  deriving DecidableEq, Repr

mutual

/-- The tree of an expression. -/
inductive Expr
  | and (left right : Expr)
  | or (left right : Expr)
  | not (operand : Expr)
  | compare (op : Comparison) (left right : Expr)
  | isIn (operand : Expr) (options : List Expr)
  | isNull (operand : Expr)
  | call (function : Function) (args : List Expr)
  | existsRow (select : Select)
  | object (entries : List (String × Expr))
  | column (column : Column)
  | param (index : Nat)
  | bool (value : Bool)
  | null
  | count (count : Count)
  | subselect (select : Select)

/-- The tree of what a select yields. -/
inductive SelectList
  | items (items : List (String × Expr))
  | star
  | one

/-- The tree of where a select takes its rows from. -/
inductive Source
  | table (table : Table)
  | select (select : Select) (label : String)

/-- The tree of a select. -/
structure Select where
  list : SelectList
  source : Option Source
  joins : List Table
  condition : Expr
  orderBy : List (Expr × Direction)
  limit : Limit

end

end Parsed

/-! ### Operators -/

/-- An operator between two operands. -/
inductive Connective
  | or
  | and
  | compare (op : Comparison)
  deriving DecidableEq, Repr

namespace Connective

/-- How strongly the operator binds. -/
def strength : Connective → Nat
  | or             => 1
  | and            => 2
  | compare .equal => 4
  | compare _      => 5

/-- The tree of the operator between two operands. -/
def join : Connective → Parsed.Expr → Parsed.Expr → Parsed.Expr
  | or         => .or
  | and        => .and
  | compare op => .compare op

end Connective

/-- An operator after an operand. -/
inductive Operator
  | between (op : Connective)
  | isIn
  | isNull
  deriving DecidableEq, Repr

namespace Operator

/-- How strongly the operator binds. -/
def strength : Operator → Nat
  | between op     => op.strength
  | isIn | isNull => 4

/-- How strongly a negation binds. -/
def negation : Nat := 3

/-- The operator that a token begins. -/
def ofToken : Token → Option Operator
  | .keyword "OR"  => some (between .or)
  | .keyword "AND" => some (between .and)
  | .keyword "IN"  => some isIn
  | .keyword "IS"  => some isNull
  | .symbol "="    => some (between (.compare .equal))
  | .symbol ">"    => some (between (.compare .greater))
  | .symbol ">="   => some (between (.compare .greaterOrEqual))
  | .symbol "<"    => some (between (.compare .less))
  | .symbol "<="   => some (between (.compare .lessOrEqual))
  | _              => none

end Operator

/-- The function of a name. -/
def Function.ofName : String → Option Function
  | "JSON"             => some .json
  | "JSON_ARRAY"       => some .jsonArray
  | "JSON_GROUP_ARRAY" => some .jsonGroupArray
  | "AVG"              => some .avg
  | "SUM"              => some .sum
  | "MIN"              => some .min
  | "MAX"              => some .max
  | _                  => none

/-! ### The parser -/

/-- A reader of the first of some tokens. -/
abbrev Parser := StateT (List Token) Option

namespace Parser

variable {α : Type}

/-- The next token. -/
def next : Parser Token
  | []      => none
  | t :: ts => some (t, ts)

/-- The next token has to be this one. -/
def expect (t : Token) : Parser Unit
  | []      => none
  | u :: ts => if u = t then some ((), ts) else none

/-- Reads the next token if it is this one, and says whether it was. -/
def accept (t : Token) : Parser Bool := fun ts =>
  if ts.head? = some t then some (true, ts.tail) else some (false, ts)

/-- A name in double quotes. -/
def identifier : Parser String
  | .identifier name :: ts => some (name, ts)
  | _                      => none

/-- A number without a sign. -/
def integer : Parser Nat
  | .integer n :: ts => some (n, ts)
  | _                => none

/-- The next operator, if there is one that binds at least so strongly. -/
def operator (least : Nat) : Parser (Option Operator)
  | [] => some (none, [])
  | t :: ts =>
    match Operator.ofToken t with
    | none    => some (none, t :: ts)
    | some op => if least ≤ op.strength then some (some op, ts) else some (none, t :: ts)

/-- What stands before a closing parenthesis. -/
def closed (p : Parser α) : Parser α := do
  let a ← p
  expect (.symbol ")")
  return a

/-- One or more with commas between them. -/
def commas (item : Parser α) : Nat → Parser (List α)
  | 0 => failure
  | fuel + 1 => do
    let a ← item
    if ← accept (.symbol ",") then return a :: (← commas item fuel)
    else return [a]

/-- Any number with commas between them, before a closing parenthesis. -/
def arguments (item : Parser α) (fuel : Nat) : Parser (List α) := do
  if ← accept (.symbol ")") then return []
  else closed (commas item fuel)

/-- A key with its value. -/
def entry (value : Parser Parsed.Expr) : Parser (String × Parsed.Expr) := do
  match ← next with
  | .literal key =>
    expect (.symbol ",")
    return (key, ← value)
  | _ => failure

/-- The name of a column, after that of its table. -/
def columnOf (table : String) : Parser Parsed.Column := do
  expect (.symbol ".")
  return { table, name := ← identifier }

/-- What is counted. -/
def count : Parser Parsed.Count := do
  if ← accept (.symbol "*") then return .rows
  else if ← accept (.keyword "DISTINCT") then return .distinct (← columnOf (← identifier))
  else return .values (← columnOf (← identifier))

/-- What stands in parentheses after the name of a function. -/
def call (value : Parser Parsed.Expr) (fuel : Nat) (name : String) : Parser Parsed.Expr := do
  expect (.symbol "(")
  if name = "COUNT" then return .count (← closed count)
  else if name = "JSON_OBJECT" then return .object (← arguments (entry value) fuel)
  else match Function.ofName name with
    | none   => failure
    | some f => return .call f (← arguments value fuel)

/-- A table with the name it is given. -/
def table : Parser Parsed.Table := do
  let name ← identifier
  expect (.keyword "AS")
  return { name, label := ← identifier }

/-- An expression with the name it is given. -/
def item (value : Parser Parsed.Expr) : Parser (String × Parsed.Expr) := do
  let e ← value
  expect (.keyword "AS")
  return (← identifier, e)

/-- What a select yields. -/
def selectList (value : Parser Parsed.Expr) (fuel : Nat) : Parser Parsed.SelectList := do
  if ← accept (.symbol "*") then return .star
  else if ← accept (.integer 1) then return .one
  else return .items (← commas (item value) fuel)

/-- Where a select takes its rows from. -/
def source (inner : Parser Parsed.Select) : Parser Parsed.Source := do
  if ← accept (.symbol "(") then
    let s ← closed inner
    expect (.keyword "AS")
    return .select s (← identifier)
  else return .table (← table)

/-- The tables that are joined. -/
def crossJoins : Nat → Parser (List Parsed.Table)
  | 0 => failure
  | fuel + 1 => do
    if ← accept (.keyword "CROSS") then
      expect (.keyword "JOIN")
      return (← table) :: (← crossJoins fuel)
    else return []

/-- The tables of a select. Others are joined only to a first. -/
def sources (inner : Parser Parsed.Select) (fuel : Nat) :
    Parser (Option Parsed.Source × List Parsed.Table) := do
  if ← accept (.keyword "FROM") then return (some (← source inner), ← crossJoins fuel)
  else return (none, [])

/-- The condition of a select. -/
def condition (value : Parser Parsed.Expr) : Parser Parsed.Expr := do
  if ← accept (.keyword "WHERE") then value
  else return .bool true

/-- An expression to order by. -/
def ordering (value : Parser Parsed.Expr) : Parser (Parsed.Expr × Direction) := do
  let e ← value
  if ← accept (.keyword "DESC") then return (e, .desc)
  else
    expect (.keyword "ASC")
    return (e, .asc)

/-- The order of a select. -/
def order (value : Parser Parsed.Expr) (fuel : Nat) : Parser (List (Parsed.Expr × Direction)) := do
  if ← accept (.keyword "ORDER") then
    expect (.keyword "BY")
    commas (ordering value) fuel
  else return []

/-- A number of rows to keep. A negative one keeps all. -/
def most : Parser (Option Nat) := do
  if ← accept (.symbol "-") then
    expect (.integer 1)
    return none
  else return some (← integer)

/-- The limit of a select. -/
def limit : Parser Limit := do
  if ← accept (.keyword "LIMIT") then
    let limit ← most
    if ← accept (.keyword "OFFSET") then return { limit, offset := some (← integer) }
    else return { limit }
  else return {}

mutual

/-- An expression whose operators bind at least so strongly. -/
def expr : Nat → Nat → Parser Parsed.Expr
  | 0, _ => failure
  | fuel + 1, least => do
    let e ← operand fuel
    operators fuel least e

/-- The operators that bind at least so strongly, after an operand. -/
def operators : Nat → Nat → Parsed.Expr → Parser Parsed.Expr
  | 0, _, _ => failure
  | fuel + 1, least, left => do
    match ← operator least with
    | none => return left
    | some (.between op) =>
      let right ← expr fuel (op.strength + 1)
      operators fuel least (op.join left right)
    | some .isIn =>
      expect (.symbol "(")
      let options ← arguments (expr fuel 0) fuel
      operators fuel least (.isIn left options)
    | some .isNull =>
      expect (.keyword "NULL")
      operators fuel least (.isNull left)

/-- An operand: a constant, a column, a call, something in parentheses, or a negation, which takes
in the operators that bind more strongly. -/
def operand : Nat → Parser Parsed.Expr
  | 0 => failure
  | fuel + 1 => do
    match ← next with
    | .param n => return .param n
    | .keyword "NULL" => return .null
    | .name "TRUE" => return .bool true
    | .name "FALSE" => return .bool false
    | .identifier table => return .column (← columnOf table)
    | .name name => call (expr fuel 0) fuel name
    | .keyword "NOT" => return .not (← expr fuel Operator.negation)
    | .keyword "EXISTS" =>
      expect (.symbol "(")
      return .existsRow (← closed (select fuel))
    | .symbol "(" =>
      if (← get).head? = some (.keyword "SELECT") then return .subselect (← closed (select fuel))
      else closed (expr fuel 0)
    | _ => failure

/-- A select. -/
def select : Nat → Parser Parsed.Select
  | 0 => failure
  | fuel + 1 => do
    expect (.keyword "SELECT")
    let list ← selectList (expr fuel 0) fuel
    let (source, joins) ← sources (select fuel) fuel
    let condition ← condition (expr fuel 0)
    let orderBy ← order (expr fuel 0) fuel
    return { list, source, joins, condition, orderBy, limit := ← limit }

end

/-- Negation binds more strongly than `AND`, and less than a comparison. -/
example : (expr 18 0).run
    [.param 1, .keyword "OR", .param 2, .keyword "AND", .keyword "NOT", .param 3, .symbol "=",
      .param 4, .symbol "<", .param 5] =
    some (.or (.param 1) (.and (.param 2)
      (.not (.compare .equal (.param 3) (.compare .less (.param 4) (.param 5))))), []) := by
  rfl

end Parser

/-- The select that a text is, from its beginning to its end. -/
def parse (text : List Char) : Option Parsed.Select := do
  let tokens ← lex text
  let (s, rest) ← (Parser.select (2 * tokens.length + 1)).run tokens
  if rest = [] then some s else none

end DataAgent.Sql
