import DataAgent.Sql.Expr
import DataAgent.Sql.Piece

/-!
# Sql — Render

The pieces of a statement's text, clause by clause from left to right. Whatever binds two operands
stands in parentheses, and a condition that is the constant true is left out.
-/

namespace DataAgent.Sql

/-- The name an alias is written as. -/
def TableAlias.label (a : TableAlias) : String := a.name ++ "_" ++ toString a.index

/-- The pieces of an alias. -/
def TableAlias.pieces (a : TableAlias) : List Piece := [.identifier a.label]

/-- The pieces of a table. -/
def TableRef.pieces : TableRef → List Piece
  | .table name => [.identifier name]
  | .aliased a  => a.pieces

/-- The pieces of a column. -/
def ColumnRef.pieces : ColumnRef → List Piece
  | .stored table name | .derived table name => table.pieces ++ [.raw ".", .identifier name]

/-- A comparison, with blanks around it. -/
def Comparison.text : Comparison → String
  | .equal => " = "
  | .greater => " > "
  | .greaterOrEqual => " >= "
  | .less => " < "
  | .lessOrEqual => " <= "

/-- Membership in a list, with blanks around it. -/
def memberText : String := " IN "

/-- The test for null, with the blank before it. -/
def nullText : String := " IS NULL"

/-- The name of a function. -/
def Function.text : Function → String
  | .json => "JSON"
  | .jsonArray => "JSON_ARRAY"
  | .jsonGroupArray => "JSON_GROUP_ARRAY"
  | .avg => "AVG"
  | .sum => "SUM"
  | .min => "MIN"
  | .max => "MAX"

/-- The pieces of a constant. Only numbers and strings are parameters. -/
def Value.pieces : Value → List Piece
  | .int n => [.param (.int n)]
  | .double x => [.param (.double x)]
  | .string s => [.param (.string s)]
  | .bool true => [.raw "TRUE"]
  | .bool false => [.raw "FALSE"]
  | .null => [.raw "NULL"]

/-- The pieces of what is counted. -/
def Count.pieces : Count → List Piece
  | .rows => [.raw "*"]
  | .values column => column.pieces
  | .distinct column => .raw "DISTINCT " :: column.pieces

/-- A direction, with the blank before it. -/
def directionText : Direction → String
  | .asc  => " ASC"
  | .desc => " DESC"

/-- The pieces of a limit. An offset alone needs a limit, and a negative one keeps all rows. -/
def Limit.pieces : Limit → List Piece
  | ⟨none, none⟩ => []
  | ⟨some limit, none⟩ => [.raw (" LIMIT " ++ toString limit)]
  | ⟨some limit, some offset⟩ =>
    [.raw (" LIMIT " ++ toString limit ++ " OFFSET " ++ toString offset)]
  | ⟨none, some offset⟩ => [.raw (" LIMIT -1 OFFSET " ++ toString offset)]

/-- The pieces of a joined table. -/
def CrossJoin.pieces (j : CrossJoin) : List Piece :=
  .raw " CROSS JOIN " :: j.table.pieces ++ .raw " AS " :: j.label.pieces

/-- A clause with its keyword, which is left out together with it. -/
def clause (leftOut : Bool) (keyword : String) (pieces : List Piece) : List Piece :=
  if leftOut then [] else .raw keyword :: pieces

mutual

/-- The pieces of an expression. -/
def Expr.pieces : Expr → List Piece
  | .and l r => .raw "(" :: l.pieces ++ .raw " AND " :: r.pieces ++ [.raw ")"]
  | .or l r => .raw "(" :: l.pieces ++ .raw " OR " :: r.pieces ++ [.raw ")"]
  | .not e => .raw "NOT (" :: e.pieces ++ [.raw ")"]
  | .compare op l r => .raw "(" :: l.pieces ++ .raw op.text :: r.pieces ++ [.raw ")"]
  | .isIn e options =>
    .raw "(" :: e.pieces ++ .raw memberText :: .raw "(" ::
      Piece.commas (listPieces options) ++ [.raw ")", .raw ")"]
  | .isNull e => .raw "(" :: e.pieces ++ [.raw nullText, .raw ")"]
  | .call f args => .raw f.text :: .raw "(" :: Piece.commas (listPieces args) ++ [.raw ")"]
  | .existsRow s => .raw "EXISTS (" :: s.pieces ++ [.raw ")"]
  | .object entries => .raw "JSON_OBJECT(" :: Piece.commas (entryPieces entries) ++ [.raw ")"]
  | .column c => c.pieces
  | .value v => v.pieces
  | .count c => .raw "COUNT(" :: c.pieces ++ [.raw ")"]
  | .subselect s => .raw "(" :: s.pieces ++ [.raw ")"]
  | .tagged tag e =>
    .comment ("<" ++ tag ++ ">") :: .raw " " :: e.pieces ++
      [.raw " ", .comment ("</" ++ tag ++ ">")]

/-- The pieces of each expression. -/
def listPieces : List Expr → List (List Piece)
  | [] => []
  | e :: rest => e.pieces :: listPieces rest

/-- The pieces of each key with its value. -/
def entryPieces : List (String × Expr) → List (List Piece)
  | [] => []
  | (key, e) :: rest => (.literal key :: .raw ", " :: e.pieces) :: entryPieces rest

/-- The pieces of each expression with its name. -/
def itemPieces : List (String × Expr) → List (List Piece)
  | [] => []
  | (name, e) :: rest => (e.pieces ++ [.raw " AS ", .identifier name]) :: itemPieces rest

/-- The pieces of each order. -/
def orderPieces : List (Expr × Direction) → List (List Piece)
  | [] => []
  | (e, direction) :: rest => (e.pieces ++ [.raw (directionText direction)]) :: orderPieces rest

/-- The pieces of what a select yields. -/
def SelectList.pieces : SelectList → List Piece
  | .items items => Piece.commas (itemPieces items)
  | .star => [.raw "*"]
  | .one => [.raw "1"]

/-- The pieces of where a select takes its rows from. -/
def Source.pieces : Source → List Piece
  | .table table a => .raw " FROM " :: table.pieces ++ .raw " AS " :: a.pieces
  | .select s a => .raw " FROM " :: .raw "(" :: s.pieces ++ .raw ")" :: .raw " AS " :: a.pieces

/-- The pieces of a source that may be absent. -/
def optionalSourcePieces : Option Source → List Piece
  | none => []
  | some source => source.pieces

/-- The pieces of a select. -/
def Select.pieces : Select → List Piece
  -- the recursion is on the parts of the select; its clauses are named in `Select.pieces_eq`
  | ⟨list, source, joins, condition, orderBy, limit⟩ =>
    .raw "SELECT " :: list.pieces ++ optionalSourcePieces source ++
      joins.flatMap CrossJoin.pieces ++ clause condition.isTrue " WHERE " condition.pieces ++
      clause orderBy.isEmpty " ORDER BY " (Piece.commas (orderPieces orderBy)) ++ limit.pieces

end

/-- The pieces of a condition, with its keyword. -/
def conditionPieces (e : Expr) : List Piece := clause e.isTrue " WHERE " e.pieces

/-- The pieces of an order, with its keywords. -/
def orderByPieces (orderBy : List (Expr × Direction)) : List Piece :=
  clause orderBy.isEmpty " ORDER BY " (Piece.commas (orderPieces orderBy))

namespace Select

/-- The pieces of a select, clause by clause. -/
theorem pieces_eq (s : Select) :
    s.pieces = .raw "SELECT " :: s.list.pieces ++ optionalSourcePieces s.source ++
      s.joins.flatMap CrossJoin.pieces ++ conditionPieces s.condition ++ orderByPieces s.orderBy ++
      s.limit.pieces := by
  cases s
  rfl

/-- The statement of a select. -/
def statement (s : Select) : Statement := .ofPieces s.pieces

/-- The pieces of the statement that asks how a select would be run. -/
def explainPieces (s : Select) : List Piece := .raw "EXPLAIN QUERY PLAN " :: s.pieces

/-- The statement that asks how a select would be run. -/
def explainStatement (s : Select) : Statement := .ofPieces s.explainPieces

end Select

end DataAgent.Sql
