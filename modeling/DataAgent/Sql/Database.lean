import DataAgent.Sql.Aggregate

/-!
# Sql — Database

Tables of rows, and the rows that flow through a statement: these also hold JSON, which is text
but known to be a document, and forgets that when it leaves the select that built it.
-/

namespace DataAgent.Sql

/-- What an expression yields. -/
inductive Content
  | cell (cell : Cell)
  /-- The text of a document; functions that build documents embed it as one if it is typed. -/
  | document (document : Json) (typed : Bool)

namespace Content

/-- No value. -/
def null : Content := .cell .null

/-- The value as a cell; a document is its text. -/
def toCell : Content → Cell
  | .cell c       => c
  | .document j _ => .text j.print

/-- The value outside the select that built it. -/
def untyped : Content → Content
  | .cell c       => .cell c
  | .document j _ => .document j false

/-- The value as a member or item of a document. A real has fifteen digits there. -/
def embed : Content → Json
  | .cell .null        => .null
  | .cell (.int n)     => .num (.int n)
  | .cell (.real x)    => .num (.double ((realDigits x).nearest.getD x))
  | .cell (.text s)    => .str s
  | .document j true   => j
  | .document j false  => .str j.print

end Content

/-- A value, with the affinity of the column it is from. -/
structure Datum where
  content : Content
  affinity : Affinity := .unset

/-- A row, by the names of its columns. -/
abbrev Tuple := List (String × Datum)

/-- Names match without regard to the case of ASCII letters. -/
def sameName (a b : String) : Bool :=
  a == b || a.toList.map Char.toLower == b.toList.map Char.toLower

/-- A column of a table. -/
structure TableColumn where
  name : String
  affinity : Affinity
  deriving DecidableEq, Repr

/-- A table: its columns, and its rows in the order they were inserted. -/
structure Table where
  name : String
  columns : List TableColumn
  rows : List (List Cell)

namespace Table

/-- The cells of a row as a tuple. -/
def tuple (t : Table) (row : List Cell) : Tuple :=
  List.zipWith (fun c cell => (c.name, { content := .cell cell, affinity := c.affinity }))
    t.columns row

/-- The rows as tuples. -/
def tuples (t : Table) : List Tuple := t.rows.map t.tuple

/-- The table with one more row, whose values are stored by the affinities of the columns. -/
def insert (t : Table) (values : List Value) : Table :=
  { t with rows := t.rows ++
      [List.zipWith (fun c v => c.affinity.store (.ofValue v)) t.columns values] }

end Table

/-- The tables of a database, in the order they were created. -/
structure Database where
  tables : List Table

/-- The table of a name. -/
def Database.table? (db : Database) (name : String) : Option Table :=
  db.tables.find? fun t => sameName t.name name

end DataAgent.Sql
