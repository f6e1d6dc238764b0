import DataAgent.Definition.Expression

/-!
# Definition — Statement

Stored statements. Of a statement that creates a table its columns and constraints are kept, as
far as they say which columns are keys and which may be null; of any other statement only that it
is one.
-/

namespace DataAgent.Definition

open Reader

/-- What is said of a column besides its type. -/
inductive ColumnOption
  | notNull
  | primaryKey
  | other
  deriving DecidableEq, Repr

/-- A column. -/
structure Column where
  name : String
  /-- The declared type, empty if there is none. -/
  type : String
  options : List ColumnOption
  deriving DecidableEq, Repr

/-- What is said of the whole table. -/
inductive Constraint
  | primaryKey (columns : List String)
  | other
  deriving DecidableEq, Repr

/-- A statement that creates a table. -/
structure CreateTable where
  columns : List Column
  constraints : List Constraint
  deriving DecidableEq, Repr

/-- A statement. -/
inductive Statement
  | createTable (table : CreateTable)
  | other
  deriving DecidableEq, Repr

/-- What happens to rows whose referenced row changes. -/
def referentialAction : Reader Unit := do
  if ← oneOf ["RESTRICT", "CASCADE"] then return ()
  if ← keywords ["NO", "ACTION"] then return ()
  if ← keywords ["SET", "NULL"] then return ()
  must (keywords ["SET", "DEFAULT"])

/-- The actions of a reference, each at most once. -/
def referentialActions : Reader Unit := do
  let action (event : String) : Reader Bool := do
    if ← keywords ["ON", event] then
      referentialAction
      return true
    else return false
  if ← action "DELETE" then
    let _ ← action "UPDATE"
  else if ← action "UPDATE" then
    let _ ← action "DELETE"

/-- When a constraint is checked, each part at most once. -/
def characteristics : Reader Unit := do
  let part (rest : Reader Bool) (seen : Bool) : Reader Bool := if seen then return false else rest
  let deferrable : Reader Bool := do
    if ← keywords ["NOT", "DEFERRABLE"] then return true else keyword "DEFERRABLE"
  let initially : Reader Bool := do
    if ← keyword "INITIALLY" then
      must (oneOf ["DEFERRED", "IMMEDIATE"])
      return true
    else return false
  let enforced : Reader Bool := do
    if ← keyword "ENFORCED" then return true else keywords ["NOT", "ENFORCED"]
  let rec loop : Nat → Bool → Bool → Bool → Reader Unit
    | 0, _, _, _ => return ()
    | n + 1, d, i, e => do
      if ← part deferrable d then loop n true i e
      else if ← part initially i then loop n d true e
      else if ← part enforced e then loop n d i true
  loop 4 false false false

/-- A computed value in parentheses, and how it is kept. -/
def generated : Reader Unit := do
  parens (topLevel.expr 0)
  let _ ← oneOf ["STORED", "VIRTUAL"]

/-- What is said next of a column, if anything is. -/
def columnOption : Reader (Option ColumnOption) := do
  if ← keywords ["CHARACTER", "SET"] then
    let _ ← path
    return some .other
  if ← keywords ["NOT", "NULL"] then return some .notNull
  if ← keyword "COMMENT" then
    let _ ← text
    return some .other
  if ← keyword "NULL" then return some .other
  if ← keyword "DEFAULT" then
    topLevel.expr 0
    return some .other
  if ← keywords ["PRIMARY", "KEY"] then
    characteristics
    return some .primaryKey
  if ← keyword "UNIQUE" then
    characteristics
    return some .other
  if ← keyword "REFERENCES" then
    let _ ← path
    let _ ← namesIfAny
    referentialActions
    characteristics
    return some .other
  if ← keyword "CHECK" then
    parens (topLevel.expr 0)
    return some .other
  -- a word of other databases is passed over, and nothing may be said after it
  if ← keyword "AUTO_INCREMENT" then return none
  if ← oneOf ["AUTOINCREMENT", "ASC", "DESC"] then return some .other
  if ← keywords ["ON", "UPDATE"] then return none
  if ← keyword "GENERATED" then
    if ← keywords ["ALWAYS", "AS"] then
      generated
      return some .other
    else return none
  if ← keyword "AS" then
    generated
    return some .other
  if ← oneOf ["SRID", "IDENTITY"] then return none
  if ← keywords ["ON", "CONFLICT"] then
    must (oneOf ["ROLLBACK", "ABORT", "FAIL", "IGNORE", "REPLACE"])
    return some .other
  return none

/-- What is said next of a column, with or without a name for it, if anything is. -/
def namedOption : Reader (Option ColumnOption) := do
  if ← keyword "CONSTRAINT" then
    let _ ← name
    match ← columnOption with
    | some option => return some option
    | none => failure
  else columnOption

/-- The words that may follow a column without a type. -/
def afterUntyped : List String :=
  ["CONSTRAINT", "PRIMARY", "NOT", "UNIQUE", "CHECK", "DEFAULT", "COLLATE", "REFERENCES", "GENERATED", "AS"]

/-- The declared type of a column, empty if there is none. -/
def columnType : Reader String := do
  match ← ahead with
  | .word s false :: _ =>
    if afterUntyped.contains s.toUpper then return "" else return (← dataType).text
  | .word _ true :: _ => return (← dataType).text
  | _ => return ""

/-- A column. -/
def column : Reader Column := do
  let name ← name
  let type ← columnType
  if ← keyword "COLLATE" then
    let _ ← path
  return { name, type, options := ← many namedOption }

/-- What may stand around the columns of a key: a name and the kind of its index. -/
def keyColumns : Reader (List String) := do
  let _ ← attempt name
  let indexKind : Reader Bool := do
    if ← keyword "USING" then
      must (oneOf ["BTREE", "HASH"])
      return true
    else return false
  let _ ← indexKind
  let columns ← names
  let _ ← many do
    if ← indexKind then return some ()
    if ← keyword "COMMENT" then
      let _ ← text
      return some ()
    return none
  characteristics
  return columns

/-- A constraint of the table, if one stands here. -/
def constraintIfAny : Reader (Option Constraint) := do
  let named ← keyword "CONSTRAINT"
  if named then
    let _ ← name
  if ← keyword "UNIQUE" then
    if ← oneOf ["KEY", "INDEX"] then failure
    if ← keyword "NULLS" then
      let _ ← keyword "NOT"
      must (keyword "DISTINCT")
    let _ ← keyColumns
    return some .other
  if ← keyword "PRIMARY" then
    must (keyword "KEY")
    return some (.primaryKey (← keyColumns))
  if ← keyword "FOREIGN" then
    must (keyword "KEY")
    let _ ← names
    must (keyword "REFERENCES")
    let _ ← path
    let _ ← names
    referentialActions
    characteristics
    return some .other
  if ← keyword "CHECK" then
    parens (topLevel.expr 0)
    return some .other
  if named then failure else return none

/-- A column or a constraint. -/
def item : Reader (Column ⊕ Constraint) := do
  match ← constraintIfAny with
  | some c => return .inr c
  | none =>
    match ← ahead with
    | .word _ _ :: _ => return .inl (← column)
    | _ => failure

/-- The columns and constraints of a table, if a parenthesis opens. -/
def items : Reader (List (Column ⊕ Constraint)) := do
  if !(← symbol "(") then return []
  if ← symbol ")" then return []
  let found ← commas item
  must (symbol ")")
  return found

/-- The existence of what is created is no error. -/
def ifNotExists : Reader Unit := do let _ ← keywords ["IF", "NOT", "EXISTS"]

/-- A table, of which the first words are taken. -/
def createTable : Reader CreateTable := do
  ifNotExists
  let _ ← path
  if ← oneOf ["LIKE", "ILIKE"] then
    let _ ← attempt path
  if ← keyword "CLONE" then
    let _ ← attempt path
  let found ← items
  let _ ← keywords ["WITHOUT", "ROWID"]
  let _ ← keyword "STRICT"
  if ← keyword "AS" then topLevel.query
  return {
    columns := found.filterMap fun i => match i with
      | .inl c => some c
      | .inr _ => none
    constraints := found.filterMap fun i => match i with
      | .inl _ => none
      | .inr c => some c }

/-- A view, of which the first words are taken. -/
def createView : Reader Unit := do
  ifNotExists
  let _ ← path
  let _ ← namesIfAny
  must (keyword "AS")
  topLevel.query

/-- An index, of which the first words are taken. -/
def createIndex : Reader Unit := do
  let exists_ ← keywords ["IF", "NOT", "EXISTS"]
  if exists_ || !(← keyword "ON") then
    let _ ← path
    must (keyword "ON")
  let _ ← path
  if ← keyword "USING" then
    let _ ← name
  let _ ← parens (commas (orderItem topLevel))
  if ← keyword "WHERE" then topLevel.expr 0

/-- A virtual table, of which the first words are taken. -/
def createVirtualTable : Reader Unit := do
  must (keyword "TABLE")
  ifNotExists
  let _ ← path
  must (keyword "USING")
  let _ ← name
  let _ ← namesIfAny

/-- What is created, after the first word. -/
def create : Reader Statement := do
  let replaces ← keywords ["OR", "REPLACE"]
  let _ ← keyword "LOCAL"
  let _ ← keyword "GLOBAL"
  let _ ← keyword "TRANSIENT"
  let _ ← oneOf ["TEMP", "TEMPORARY"]
  if ← keyword "TABLE" then return .createTable (← createTable)
  if ← keywords ["MATERIALIZED", "VIEW"] then
    createView
    return .other
  if ← keyword "VIEW" then
    createView
    return .other
  if replaces then failure
  if ← keyword "INDEX" then
    createIndex
    return .other
  if ← keywords ["UNIQUE", "INDEX"] then
    createIndex
    return .other
  must (keyword "VIRTUAL")
  createVirtualTable
  return .other

/-- What is dropped, after the first word. -/
def drop : Reader Unit := do
  let _ ← keyword "TEMPORARY"
  let _ ← keyword "MATERIALIZED"
  must (oneOf ["TABLE", "VIEW", "INDEX"])
  let _ ← keywords ["IF", "EXISTS"]
  let _ ← commas path
  let _ ← oneOf ["CASCADE", "RESTRICT"]
  let _ ← keyword "PURGE"

/-- What happens on a conflict. -/
def conflictAction : Reader Unit := do
  let _ ← namesIfAny
  must (keyword "DO")
  if ← keyword "NOTHING" then return ()
  must (keywords ["UPDATE", "SET"])
  let _ ← commas do
    let _ ← path
    must (symbol "=")
    topLevel.expr 0
  if ← keyword "WHERE" then topLevel.expr 0

/-- What is inserted, after the first word. -/
def insert : Reader Unit := do
  if ← keyword "OR" then must (oneOf ["REPLACE", "ROLLBACK", "ABORT", "FAIL", "IGNORE"])
  let _ ← keyword "INTO"
  let _ ← keyword "TABLE"
  let _ ← path
  if !(← keywords ["DEFAULT", "VALUES"]) then
    match ← ahead with
    | .symbol "(" :: rest => if !queryAhead rest then let _ ← names
    | _ => pure ()
    topLevel.query
  if ← keywords ["ON", "CONFLICT"] then conflictAction
  if ← keyword "RETURNING" then
    let _ ← commas (selectItem topLevel)

/-- A statement. -/
def statement : Reader Statement := do
  if ← keyword "CREATE" then create
  else if ← keyword "DROP" then
    drop
    return .other
  else if ← oneOf ["INSERT", "REPLACE"] then
    insert
    return .other
  else
    topLevel.query
    return .other

/-- All statements of a text, which semicolons part. The word `END` where one should stand ends
the text. -/
def statementsWith : Nat → Bool → Reader (List Statement)
  | 0, _ => failure
  | fuel + 1, delimited => do
    if ← symbol ";" then statementsWith fuel true
    else
      match ← ahead with
      | [] => return []
      | t :: _ =>
        if !delimited then if t.isKeyword "END" then return [] else failure
        else return (← statement) :: (← statementsWith fuel false)

/-- The statements of a text; none if it is not a list of well-formed statements. -/
def read (text : String) : Option (List Statement) := do
  let tokens ← Token.lex text
  let (statements, _) ← statementsWith (2 * tokens.length + 2) true tokens
  return statements

end DataAgent.Definition
