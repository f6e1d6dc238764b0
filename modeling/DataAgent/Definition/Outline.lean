import DataAgent.Definition.Token

/-!
# Definition — Outline

What a database keeps of a statement that creates a table: its name, its columns with their
declared types, the order of its rows, and the text. Only the shape of the statement is looked
at, so that `Outline.ofText?` also understands what no reader of whole statements does.
-/

namespace DataAgent.Definition

/-- A token, with the text that starts at it and the text after it. -/
structure Placed where
  token : Token
  start : List Char
  after : List Char

namespace Placed

/-- The tokens of a text with their places; every step takes at least one of the `fuel`
characters. -/
def lexWith : Nat → List Char → Option (List Placed)
  | _, [] => some []
  | 0, _ => none
  | fuel + 1, input => do
    let (token, after) ← Token.first input
    let placed ← lexWith fuel after
    return (token.toList.map fun t => { token := t, start := input, after }) ++ placed

end Placed

/-- A table as the statement that creates it lays it out. -/
structure Outline where
  name : String
  /-- The columns with their declared types. -/
  columns : List (String × String)
  /-- The column that is the number of its row. -/
  rowNumber : Option Nat
  /-- The columns that a table without row numbers is ordered by. -/
  order : List Nat
  /-- Row numbers are never used twice. -/
  autoincrement : Bool
  /-- The text that is kept of the statement. -/
  definition : String
  deriving DecidableEq, Repr

namespace Outline

/-- The words that start what is said of a column besides its type. -/
def optionWords : List String :=
  ["CONSTRAINT", "PRIMARY", "NOT", "NULL", "UNIQUE", "CHECK", "DEFAULT", "COLLATE", "REFERENCES",
    "GENERATED", "AS", "ON", "AUTOINCREMENT"]

/-- The words that start what is said of the whole table. -/
def constraintWords : List String := ["CONSTRAINT", "PRIMARY", "UNIQUE", "CHECK", "FOREIGN"]

/-- The token is one of the keywords. -/
def isOneOf (words : List String) (t : Token) : Bool := words.any fun w => t.isKeyword w

/-- The name that a token is. -/
def nameOf? : Token → Option String
  | .word s _ => some s
  | .text s   => some s
  | _         => none

/-- The parts of a list that commas outside of `depth` parentheses separate, up to the end of the
list, and what follows that. -/
def parts : Nat → List Token → List Token → List (List Token) × List Token
  | _, taken, [] => ([taken.reverse], [])
  | depth, taken, t :: rest =>
    if t = .symbol "(" then parts (depth + 1) (t :: taken) rest
    else if t = .symbol ")" then
      match depth with
      | 0         => ([taken.reverse], rest)
      | depth + 1 => parts depth (t :: taken) rest
    else if t = .symbol "," ∧ depth = 0 then
      let (more, after) := parts 0 [] rest
      (taken.reverse :: more, after)
    else parts depth (t :: taken) rest

/-- The words of a declared type. -/
def typeWords : List Token → List String
  | [] => []
  | t :: rest =>
    if isOneOf optionWords t then []
    else match nameOf? t with
      | some s => s :: typeWords rest
      | none   => []

/-- A column and its declared type. -/
def column? : List Token → Option (String × String)
  | [] => none
  | t :: rest => (nameOf? t).map fun name =>
    (name, String.ofList ([' '].intercalate ((typeWords rest).map String.toList)))

/-- The keywords stand somewhere in the list; what follows them. -/
def after? (first second : String) : List Token → Option (List Token)
  | s :: t :: rest =>
    if s.isKeyword first && t.isKeyword second then some rest else after? first second (t :: rest)
  | _ => none

/-- Names match without regard to the case of ASCII letters. -/
def sameWord (a b : String) : Bool := a.toList.map Char.toLower == b.toList.map Char.toLower

/-- The places of the columns that a constraint names as the key. -/
def keyOf (columns : List (String × String)) (constraint : List Token) : List Nat :=
  match after? "PRIMARY" "KEY" constraint with
  | some (_ :: rest) => (parts 0 [] rest).1.filterMap fun part => do
    let name ← nameOf? (← part.head?)
    columns.findIdx? fun (c, _) => sameWord c name
  | _ => []

/-- The outline of the table whose name the tokens start with. -/
def ofBody? (definition : String) (name : String) (body : List Token) : Option Outline := do
  let (items, after) := parts 0 [] body
  let isConstraint (item : List Token) : Bool := item.head?.any (isOneOf constraintWords)
  let columnItems := items.takeWhile fun item => !isConstraint item
  let columns ← columnItems.mapM column?
  let constraints := items.drop columnItems.length
  let keyed := (columnItems.zipIdx).filterMap fun (item, i) =>
    (after? "PRIMARY" "KEY" item).map fun rest => (i, rest.head?.any fun t => t.isKeyword "DESC")
  let key := keyed.map Prod.fst ++ constraints.flatMap (keyOf columns)
  let isNumber : Bool := match key with
    | [i] => columns[i]?.any (fun (_, type) => sameWord type "integer") && !keyed.contains (i, true)
    | _   => false
  let numbersRows := (after? "WITHOUT" "ROWID" after).isNone
  return {
    name, columns, definition
    rowNumber := if isNumber && numbersRows then key.head? else none
    order := if numbersRows then [] else key
    autoincrement := items.any fun item => item.any fun t => t.isKeyword "AUTOINCREMENT" }

/-- The text from a token up to the last one that is not a semicolon. -/
def textFrom (start : List Char) (placed : List Placed) : List Char :=
  match (placed.reverse.dropWhile fun p => p.token = .symbol ";").head? with
  | some last => start.take (start.length - last.after.length)
  | none      => start

/-- The outline by the tokens that start with the name, which another name may qualify. -/
def ofNamed? : List Placed → Option Outline
  | q :: dot :: n :: rest =>
    if dot.token = .symbol "." then
      match rest with
      | p :: rest => if p.token = .symbol "(" then build n rest else none
      | [] => none
    else if dot.token = .symbol "(" then build q (n :: rest)
    else none
  | _ => none
where
  /-- The outline of a name and the tokens after the parenthesis. -/
  build (named : Placed) (rest : List Placed) : Option Outline := do
    let definition := String.ofList ("CREATE TABLE ".toList ++ textFrom named.start rest)
    ofBody? definition (← nameOf? named.token) (rest.map Placed.token)

/-- The tokens without the keywords, if these stand there. -/
def dropWords? : List String → List Placed → Option (List Placed)
  | [], placed => some placed
  | w :: words, p :: placed => if p.token.isKeyword w then dropWords? words placed else none
  | _ :: _, [] => none

/-- The outline of the table that a statement creates for good; none if it creates none. -/
def ofText? (text : String) : Option Outline := do
  let placed ← Placed.lexWith text.length text.toList
  let rest ← dropWords? ["CREATE", "TABLE"] placed
  ofNamed? ((dropWords? ["IF", "NOT", "EXISTS"] rest).getD rest)

end Outline

end DataAgent.Definition
