import DataAgent.Definition.DataType

/-!
# Definition — Expression

Expressions and queries inside stored statements. Nothing of them is kept: a reader only has to
tell a well-formed one from another, and to find where it ends, which is where no operator binds
more strongly than what stands before the expression.
-/

namespace DataAgent.Definition

open Reader

/-- The readers of what is nested one level deeper. -/
structure Nested where
  /-- An expression whose operators bind more strongly than the given strength. -/
  expr : Nat → Reader Unit
  query : Reader Unit

/-- How strongly operators bind. -/
structure Strength where
  or : Nat := 5
  and : Nat := 10
  not : Nat := 15
  arrow : Nat := 16
  is : Nat := 17
  like : Nat := 19
  compare : Nat := 20
  pipe : Nat := 21
  caret : Nat := 22
  ampersand : Nat := 23
  xor : Nat := 24
  sum : Nat := 30
  product : Nat := 40
  zone : Nat := 41
  cast : Nat := 50

/-- The strengths. -/
def strength : Strength := {}

/-- The strength of a word that is an operator. -/
def wordStrength (tokens : List Token) (word : String) : Nat :=
  let follows (ks : List String) : Bool := match tokens with
    | _ :: t :: _ => ks.any fun k => t.isKeyword k
    | _ => false
  match word with
  | "OR" => strength.or
  | "AND" => strength.and
  | "XOR" => strength.xor
  | "IS" => strength.is
  | "IN" | "BETWEEN" | "OVERLAPS" => strength.compare
  | "LIKE" | "ILIKE" | "RLIKE" | "REGEXP" | "SIMILAR" => strength.like
  | "DIV" => strength.product
  | "NOT" =>
    if follows ["IN", "BETWEEN"] then strength.compare
    else if follows ["LIKE", "ILIKE", "RLIKE", "REGEXP", "SIMILAR"] then strength.like
    else 0
  | "AT" => if follows ["TIME"] then strength.zone else 0
  | _ => 0

/-- The strength of a symbol that is an operator. -/
def symbolStrength (s : String) : Nat :=
  match s with
  | "=" | "<" | "<=" | "<>" | "!=" | ">" | ">=" | "==" | "<=>" | "~" => strength.compare
  | "|" => strength.pipe
  | "^" | "#" | "<<" | ">>" => strength.caret
  | "&" => strength.ampersand
  | "+" | "-" => strength.sum
  | "*" | "/" | "%" | "||" => strength.product
  | "::" | "!" | "&&" => strength.cast
  | "->" | "->>" | "@>" | "<@" => strength.arrow
  | _ => 0

/-- The strength of the operator ahead, zero if there is none. -/
def strengthAhead (tokens : List Token) : Nat :=
  match tokens with
  | .word s false :: _ => wordStrength tokens s.toUpper
  | .symbol s :: _ => symbolStrength s
  | _ => 0

/-- A select or a query with names stands ahead. -/
def queryAhead (tokens : List Token) : Bool :=
  match tokens with
  | t :: _ => t.isKeyword "SELECT" || t.isKeyword "WITH"
  | [] => false

/-- A list of expressions. -/
def exprs (n : Nested) : Reader Unit := do let _ ← commas (n.expr 0)

/-- A query or a list of expressions, in parentheses of which the first is taken. -/
def restOfParens (n : Nested) : Reader Unit := do
  if queryAhead (← ahead) then n.query else exprs n
  must (symbol ")")

/-- An item of an order. -/
def orderItem (n : Nested) : Reader Unit := do
  n.expr 0
  let _ ← oneOf ["ASC", "DESC"]
  if ← keyword "NULLS" then must (oneOf ["FIRST", "LAST"])

/-- An order, if there is one. -/
def orderIfAny (n : Nested) : Reader Unit := do
  if ← keywords ["ORDER", "BY"] then
    let _ ← commas (orderItem n)

/-- A star, or the columns of one table. -/
def wildcard : Reader Unit := do
  match ← ahead with
  | .symbol "*" :: _ => let _ ← next
  | .word _ _ :: .symbol "." :: .symbol "*" :: _ => do
    let _ ← next
    let _ ← next
    let _ ← next
  | _ => failure

/-- An argument of a function. -/
def functionArgument (n : Nested) : Reader Unit := do
  match ← attempt wildcard with
  | some _ => return ()
  | none => n.expr 0

/-- The window of a function. -/
def window (n : Nested) : Reader Unit := do
  if ← symbol "(" then
    if ← keywords ["PARTITION", "BY"] then exprs n
    orderIfAny n
    must (symbol ")")
  else
    let _ ← name

/-- The arguments of a function, and what may follow them. -/
def functionCall (n : Nested) : Reader Unit := do
  must (symbol "(")
  if !(← symbol ")") then
    let _ ← oneOf ["DISTINCT", "ALL"]
    let _ ← commas (functionArgument n)
    orderIfAny n
    must (symbol ")")
  if ← keyword "FILTER" then
    parens do
      must (keyword "WHERE")
      n.expr 0
  if ← keyword "OVER" then window n

/-- A choice between cases. -/
def caseExpression (n : Nested) : Reader Unit := do
  if !(← keyword "WHEN") then
    n.expr 0
    must (keyword "WHEN")
  let branch : Reader Unit := do
    n.expr 0
    must (keyword "THEN")
    n.expr 0
  branch
  let _ ← many do
    if ← keyword "WHEN" then
      branch
      return some ()
    else return none
  if ← keyword "ELSE" then n.expr 0
  must (keyword "END")

/-- A value as another type. -/
def castExpression (n : Nested) : Reader Unit := parens do
  n.expr 0
  must (keyword "AS")
  let _ ← dataType

/-- The points and names that qualify a name. -/
def qualifiers : Nat → Reader Unit
  | 0 => return ()
  | fuel + 1 => do
    if ← symbol "." then
      let _ ← name
      qualifiers fuel

/-- A name, or a call of the function it names, of which the first word is taken. -/
def nameOrCall (n : Nested) : Reader Unit := do
  let tokens ← ahead
  qualifiers tokens.length
  match ← ahead with
  | .symbol "(" :: _ => functionCall n
  | _ => return ()

/-- The negation of an expression, or of the existence of rows. -/
def negation (n : Nested) : Reader Unit := do
  if ← keyword "EXISTS" then parens n.query else n.expr strength.not

/-- The rest of an expression that starts with a bare word, if the word has a meaning of its
own. -/
def meaningOf (n : Nested) (word : String) : Option (Reader Unit) :=
  match word with
  | "TRUE" | "FALSE" | "NULL" => some (return ())
  | "CURRENT_TIMESTAMP" | "CURRENT_TIME" | "CURRENT_DATE" | "LOCALTIME" | "LOCALTIMESTAMP" => some do
    match ← ahead with
    | .symbol "(" :: _ => functionCall n
    | _ => return ()
  | "CASE" => some (caseExpression n)
  | "CAST" | "TRY_CAST" => some (castExpression n)
  | "EXISTS" => some (parens n.query)
  | "NOT" => some (negation n)
  | _ => none

/-- What an operator stands between, before its collation. -/
def operandBare (n : Nested) : Reader Unit := do
  match ← next with
  | .word s false =>
    match meaningOf n s.toUpper with
    | some r =>
      match ← attempt r with
      | some _ => return ()
      | none => if s.toUpper = "EXISTS" then failure else nameOrCall n
    | none => nameOrCall n
  | .word _ true => nameOrCall n
  | .number _ | .text _ | .literal => return ()
  | .symbol "-" | .symbol "+" => n.expr strength.product
  | .symbol "(" => restOfParens n
  | .symbol "?" => do
    match ← ahead with
    | .number _ :: _ => let _ ← next
    | _ => return ()
  | _ => failure

/-- A text with the name of a known type before it. -/
def typedText : Reader Unit := do
  if !(← dataType).known then failure
  let _ ← text

/-- What an operator stands between. -/
def operand (n : Nested) : Reader Unit := do
  match ← attempt typedText with
  | some _ => return ()
  | none =>
    operandBare n
    if ← keyword "COLLATE" then
      let _ ← path

/-- What follows `IS`. -/
def isTest (n : Nested) : Reader Unit := do
  let _ ← keyword "NOT"
  if ← oneOf ["NULL", "TRUE", "FALSE", "UNKNOWN"] then return ()
  must (keywords ["DISTINCT", "FROM"])
  n.expr 0

/-- What follows `IN`. -/
def inList (n : Nested) : Reader Unit := do
  must (symbol "(")
  if ← symbol ")" then return ()
  restOfParens n

/-- What follows `LIKE`. -/
def likePattern (n : Nested) : Reader Unit := do
  n.expr strength.like
  if ← keyword "ESCAPE" then
    let _ ← text

/-- An operator that is a word, with what follows it; `NOT` may stand before some. -/
def wordOperator (n : Nested) (word : String) (binds : Nat) : Reader Unit := do
  match word with
  | "AND" | "OR" | "XOR" | "OVERLAPS" => n.expr binds
  | "IS" => isTest n
  | "AT" => do
    must (keywords ["TIME", "ZONE"])
    n.expr binds
  | "IN" => inList n
  | "BETWEEN" => do
    n.expr strength.compare
    must (keyword "AND")
    n.expr strength.compare
  | "LIKE" | "ILIKE" => do
    let _ ← keyword "ANY"
    likePattern n
  | "SIMILAR" => do
    must (keyword "TO")
    likePattern n
  | "REGEXP" | "RLIKE" => n.expr strength.like
  | _ => failure

/-- An operator, with what follows it. -/
def operator (n : Nested) (binds : Nat) : Reader Unit := do
  match ← next with
  | .word s _ =>
    if s.toUpper = "NOT" then
      match ← next with
      | .word s _ => wordOperator n s.toUpper binds
      | _ => failure
    else wordOperator n s.toUpper binds
  | .symbol "::" => let _ ← dataType
  | .symbol "!" => return ()
  | .symbol s => if ["<<", ">>", "#", "&&"].contains s then failure else n.expr binds
  | _ => failure

/-- Operators that bind more strongly than `least`, as many as there are. -/
def operators (n : Nested) (least : Nat) : Reader Unit := do
  let _ ← many do
    let binds := strengthAhead (← ahead)
    if least < binds then
      operator n binds
      return some ()
    else return none

/-- An expression whose operators bind more strongly than `least`. -/
def expression (n : Nested) (least : Nat) : Reader Unit := do
  operand n
  operators n least

/-- The words that end an item of a select, so they are no alias without `AS`. -/
def notAnAlias : List String :=
  ["WITH", "EXPLAIN", "ANALYZE", "SELECT", "WHERE", "GROUP", "SORT", "HAVING", "WINDOW", "ORDER", "TOP",
    "LATERAL", "VIEW", "LIMIT", "OFFSET", "FETCH", "UNION", "EXCEPT", "INTERSECT", "CLUSTER", "DISTRIBUTE",
    "RETURNING", "FROM", "INTO", "END"]

/-- The words that end a table of a select, too. -/
def notATableAlias : List String :=
  notAnAlias ++ ["ON", "JOIN", "INNER", "CROSS", "FULL", "LEFT", "RIGHT", "NATURAL", "USING", "OUTER", "SET",
    "QUALIFY", "FOR", "MINUS", "PIVOT", "UNPIVOT", "GLOBAL", "ANTI", "SEMI", "ASOF", "PARTITION"]

/-- An alias, if there is one. -/
def aliasIfAny (reserved : List String) : Reader Unit := do
  if ← keyword "AS" then
    let _ ← name
  else
    match ← ahead with
    | t :: _ =>
      let free := match t with
        | .word _ true => true
        | .word s false => !reserved.contains s.toUpper
        | .text _ => true
        | _ => false
      if free then
        let _ ← next
    | [] => return ()

/-- An item of a select. -/
def selectItem (n : Nested) : Reader Unit := do
  match ← attempt wildcard with
  | some _ => return ()
  | none => do
    match ← ahead with
    | t :: _ => if t.isKeyword "FROM" then failure
    | [] => failure
    n.expr 0
    aliasIfAny notAnAlias

/-- A table, or a query in parentheses. -/
def tableFactor (n : Nested) : Reader Unit := do
  if ← symbol "(" then
    n.query
    must (symbol ")")
  else
    let _ ← path
    match ← ahead with
    | .symbol "(" :: _ => functionCall n
    | _ => pure ()
  aliasIfAny notATableAlias

/-- A joined table, if there is one. -/
def joinIfAny (n : Nested) : Reader (Option Unit) := do
  let kinds : List (List String) :=
    [["JOIN"], ["INNER", "JOIN"], ["CROSS", "JOIN"], ["LEFT", "JOIN"], ["LEFT", "OUTER", "JOIN"],
      ["RIGHT", "JOIN"], ["RIGHT", "OUTER", "JOIN"], ["FULL", "JOIN"], ["FULL", "OUTER", "JOIN"],
      ["NATURAL", "JOIN"]]
  let tokens ← ahead
  let kind := kinds.find? fun ks =>
    ks.length ≤ tokens.length && (ks.zip tokens).all fun (k, t) => t.isKeyword k
  match kind with
  | none => return none
  | some ks => do
    must (keywords ks)
    tableFactor n
    if ← keyword "ON" then n.expr 0
    else if ← keyword "USING" then
      let _ ← names
    return some ()

/-- A table with the tables joined to it. -/
def joinedTable (n : Nested) : Reader Unit := do
  tableFactor n
  let _ ← many (joinIfAny n)

/-- A select, of which the first word is taken. -/
def selectBody (n : Nested) : Reader Unit := do
  let _ ← oneOf ["DISTINCT", "ALL"]
  let _ ← commas (selectItem n)
  if ← keyword "FROM" then
    let _ ← commas (joinedTable n)
  if ← keyword "WHERE" then n.expr 0
  if ← keywords ["GROUP", "BY"] then exprs n
  if ← keyword "HAVING" then n.expr 0

/-- Rows of values, of which the first word is taken. -/
def valuesBody (n : Nested) : Reader Unit := do
  let _ ← commas (parens (exprs n))

/-- A select, rows of values, or a query in parentheses. -/
def queryTerm (n : Nested) : Reader Unit := do
  if ← keyword "SELECT" then selectBody n
  else if ← keyword "VALUES" then valuesBody n
  else parens n.query

/-- Another query whose rows are combined with those before it, if there is one. -/
def combinedIfAny (n : Nested) : Reader (Option Unit) := do
  if ← oneOf ["UNION", "EXCEPT", "INTERSECT"] then
    let _ ← oneOf ["ALL", "DISTINCT"]
    queryTerm n
    return some ()
  else return none

/-- A query with a name. -/
def namedQuery (n : Nested) : Reader Unit := do
  let _ ← name
  let _ ← namesIfAny
  must (keyword "AS")
  parens n.query

/-- A query. -/
def queryBody (n : Nested) : Reader Unit := do
  if ← keyword "WITH" then
    let _ ← keyword "RECURSIVE"
    let _ ← commas (namedQuery n)
  queryTerm n
  let _ ← many (combinedIfAny n)
  orderIfAny n
  if ← keyword "LIMIT" then
    n.expr 0
    if ← symbol "," then n.expr 0
  if ← keyword "OFFSET" then
    n.expr 0
    let _ ← oneOf ["ROW", "ROWS"]

/-- The readers of what is nested at most so many levels. -/
def nested : Nat → Nested
  | 0 => { expr := fun _ => failure, query := failure }
  | depth + 1 =>
    let inner := nested depth
    { expr := expression inner, query := queryBody inner }

/-- A statement counts as one of fifty levels. -/
def topLevel : Nested := nested 49

end DataAgent.Definition
