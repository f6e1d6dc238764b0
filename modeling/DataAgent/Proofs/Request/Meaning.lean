import DataAgent.Sql.Eval

/-!
# Proofs — Request — Meaning

What a request asks for, said over the rows of a database and without a statement. A filter has a
truth value at a row (`Filter.truth`), which may be unknown; a comparison that reaches along
relationships is true when rows along the paths make it true, and false otherwise. A query has a
document over the rows it may choose from (`Query.document`): those that its filter keeps, in its
order and cut to its page, as an array of their objects, or summarised by aggregates. The rows that a
relationship field may choose from are those related to the row at hand.

A document is an error only where a sum of integers leaves sixty-four bits. What the object of a
query's aggregates becomes is left to a parameter, so that the documents of two readings of it can
be compared: `Summary.plain` is the object as it is, and `Summary.ofRows` is null where neither rows
nor aggregates are there to fill it.
-/

namespace DataAgent

open Sql

/-! ### Rows and relationships -/

/-- The relationship that a table has under a name, by the first entry for the table. -/
def relationshipOf (rels : List TableRelationships) (table name : String) : Option Relationship :=
  (rels.find? fun t => t.source = table).bind fun t => Members.get? t.relationships name

/-- The rows of a table in the order they were inserted. -/
def Sql.Database.rowsOf (db : Database) (table : String) : List Tuple :=
  (db.table? table).elim [] Table.tuples

/-- A row of the target is related to a row of the source: each pair of columns is equal. -/
def Relationship.relates (r : Relationship) (source target : Tuple) : Bool :=
  r.mapping.all fun (left, right) => (source.get left).compare .equal (target.get right) == some true

/-- The rows of the target that are related to a row of the source. -/
def Relationship.related (r : Relationship) (db : Database) (source : Tuple) : List Tuple :=
  (db.rowsOf r.target).filter (r.relates source)

/-- The rows at the end of a path that starts at a row of a table. -/
def rowsAlong (rels : List TableRelationships) (db : Database) :
    String → Tuple → List String → List Tuple
  | _, row, [] => [row]
  | table, row, name :: path =>
    match relationshipOf rels table name with
    | none   => []
    | some r => (r.related db row).flatMap fun next => rowsAlong rels db r.target next path

/-! ### Filters -/

/-- All hold: false if one is false, else unknown if one is unknown. -/
def allHold (truths : List (Option Bool)) : Option Bool :=
  if some false ∈ truths then some false else if none ∈ truths then none else some true

/-- One of them holds: true if one is true, else unknown if one is unknown. -/
def someHolds (truths : List (Option Bool)) : Option Bool :=
  if some true ∈ truths then some true else if none ∈ truths then none else some false

/-- The value of a scalar. An integer beyond sixty-four bits is a double. -/
def Json.datum : Json → Datum
  | .null            => .ofCell .null
  | .bool b          => .ofCell (.int (if b then 1 else 0))
  | .num (.int n)    => .ofCell (if fitsWord n then .int n else .real (.ofInt n))
  | .num (.double x) => .ofCell (.real x)
  | .str s           => .ofCell (.text s)
  | .arr _ | .obj _  => .ofCell .null

/-- The comparisons by their names in filters. -/
def comparisonNames : List (String × Comparison) :=
  [("equal", .equal), ("greater_than", .greater), ("greater_than_or_equal", .greaterOrEqual),
    ("less_than", .less), ("less_than_or_equal", .lessOrEqual)]

/-- The path of what a column is compared with. -/
def Operand.path : Operand → List String
  | .column c => c.path
  | .scalar _ => []

/-- The value of what a column is compared with, at the row its path leads to. -/
def Operand.value (row : Tuple) : Operand → Datum
  | .column c => row.get c.name
  | .scalar j => j.datum

/-- A test of two rows, and the paths that lead to them. -/
structure Probe where
  left : List String
  right : List String := []
  test : Tuple → Tuple → Option Bool

/-- What a filter that compares tests. Names that are no operators test nothing. -/
def Filter.probe : Filter → Option Probe
  | .unary operator column =>
    if operator = "is_null" then
      some { left := column.path, test := fun l _ => some ((l.get column.name).cell = .null) }
    else none
  | .binary operator column operand =>
    (comparisonNames.lookup operator).map fun op =>
      { left := column.path
        right := operand.path
        test := fun l r => (l.get column.name).compare op (operand.value r) }
  | .list operator column values =>
    if operator = "in" then
      some { left := column.path
             test := fun l _ =>
              someHolds (values.map fun v => (l.get column.name).compare .equal v.datum) }
    else none
  | .and _ | .or _ | .not _ => none

/-- The truth of a test. Without paths it is the test of the row itself; else it is whether some rows
at the ends of the paths, each walked on its own, pass the test. -/
def Probe.truth (rels : List TableRelationships) (db : Database) (table : String) (row : Tuple)
    (p : Probe) : Option Bool :=
  if p.left = [] ∧ p.right = [] then p.test row row
  else some ((rowsAlong rels db table row p.left).any fun l =>
    (rowsAlong rels db table row p.right).any fun r => p.test l r == some true)

mutual

/-- The truth of a filter at a row of a table. -/
def Filter.truth (rels : List TableRelationships) (db : Database) (table : String) (row : Tuple) :
    Filter → Option Bool
  | .and filters => allHold (Filter.truths rels db table row filters)
  | .or filters => someHolds (Filter.truths rels db table row filters)
  | .not filter => (filter.truth rels db table row).map (!·)
  | .unary operator column =>
    (Filter.unary operator column).probe.bind (·.truth rels db table row)
  | .binary operator column operand =>
    (Filter.binary operator column operand).probe.bind (·.truth rels db table row)
  | .list operator column values =>
    (Filter.list operator column values).probe.bind (·.truth rels db table row)

/-- The truth of each filter at a row. -/
def Filter.truths (rels : List TableRelationships) (db : Database) (table : String) (row : Tuple) :
    List Filter → List (Option Bool)
  | []                => []
  | filter :: filters => filter.truth rels db table row :: Filter.truths rels db table row filters

end

/-! ### Queries -/

/-- A row comes before another or is level with it, by the first column in which they differ. -/
def rowLe : List OrderBy → Tuple → Tuple → Bool
  | [], _, _ => true
  | o :: order, a, b =>
    match (a.get o.column).cell.compare (b.get o.column).cell with
    | .eq => rowLe order a b
    | .lt => o.direction == .asc
    | .gt => o.direction == .desc

/-- The rows that a query is about: those that the filter keeps, sorted so that level rows stay in
their order, without the first `offset`, and of the rest at most `limit`. -/
def pageRowsOf (rels : List TableRelationships) (db : Database) (table : String)
    (candidates : List Tuple) (filter : Option Filter) (order : List OrderBy)
    (limit offset : Option Nat) : List Tuple :=
  let kept := candidates.filter fun row =>
    filter.all fun f => f.truth rels db table row == some true
  let rest := (kept.mergeSort (rowLe order)).drop (offset.getD 0)
  limit.elim rest rest.take

/-- The value of an aggregate over rows. Names that are no functions give null. -/
def Aggregate.value (rows : List Tuple) : Aggregate → Except EngineError Cell
  | .rowCount => .ok (.int rows.length)
  | .columnCount column distinct =>
    let cells := rows.map fun row => (row.get column).cell
    .ok (if distinct then Sql.Aggregate.countDistinct cells else Sql.Aggregate.count cells)
  | .single column function =>
    let cells := rows.map fun row => (row.get column).cell
    match function with
    | "avg" => .ok (Sql.Aggregate.avg cells)
    | "sum" => Sql.Aggregate.sum cells
    | "min" => .ok (Sql.Aggregate.min cells)
    | "max" => .ok (Sql.Aggregate.max cells)
    | _     => .ok .null

/-- The values of aggregates over rows, by their keys. -/
def aggregateMembers (rows : List Tuple) (aggregates : List (String × Aggregate)) :
    Except EngineError (List (String × Json)) :=
  aggregates.mapM fun a => return (a.1, (Content.cell (← a.2.value rows)).embed)

/-- What the values of the aggregates over some rows become. -/
abbrev Summary := List Tuple → List (String × Json) → Json

/-- The object of the values. -/
def Summary.plain : Summary := fun _ members => .obj members

/-- The object of the values, or null if there are neither rows nor values. -/
def Summary.ofRows : Summary := fun rows members =>
  if rows.isEmpty && members.isEmpty then .null else .obj members

mutual

/-- The document of a query over a table, among the rows it may choose from. -/
def Query.document (summary : Summary) (rels : List TableRelationships) (db : Database)
    (table : String) (candidates : List Tuple) : Query → Except EngineError Json
  | ⟨fields, aggregates, filter, orderBy, limit, offset⟩ =>
    let rows := pageRowsOf rels db table candidates filter (orderBy.getD []) limit offset
    let objects := rows.mapM fun row => fieldsDocument summary rels db table row fields
    match aggregates with
    | none => return .arr (← objects)
    | some aggregates => do
      let first := ("aggregates", summary rows (← aggregateMembers rows aggregates))
      if fields.isNone then return .obj [first] else return .obj [first, ("rows", .arr (← objects))]

/-- The object of the first row that the filter keeps among those a row is related to, in an array;
null if there is none. -/
def Query.objectDocument (summary : Summary) (rels : List TableRelationships) (db : Database)
    (table : String) (candidates : List Tuple) : Query → Except EngineError Json
  | ⟨fields, _, filter, _, _, _⟩ =>
    match (pageRowsOf rels db table candidates filter [] none none).head? with
    | none     => return .null
    | some row => return .obj [("rows", .arr [← fieldsDocument summary rels db table row fields])]

/-- The object of a row, with a member for each field in their order. -/
def fieldsDocument (summary : Summary) (rels : List TableRelationships) (db : Database)
    (table : String) (row : Tuple) : Option (List (String × Field)) → Except EngineError Json
  | none        => return .obj []
  | some fields => return .obj (← fieldMembers summary rels db table row fields)

/-- The members of the object of a row. -/
def fieldMembers (summary : Summary) (rels : List TableRelationships) (db : Database)
    (table : String) (row : Tuple) :
    List (String × Field) → Except EngineError (List (String × Json))
  | [] => return []
  | (key, field) :: fields =>
    return (key, ← Field.document summary rels db table row field) ::
      (← fieldMembers summary rels db table row fields)

/-- The value of a field: that of a column, or the document of a query over the related rows. -/
def Field.document (summary : Summary) (rels : List TableRelationships) (db : Database)
    (table : String) (row : Tuple) : Field → Except EngineError Json
  | .column name => return (row.get name).content.embed
  | .relationship name query =>
    match relationshipOf rels table name with
    | none   => return .null
    | some r =>
      match r.kind with
      | .object => query.objectDocument summary rels db r.target (r.related db row)
      | .array  => query.document summary rels db r.target (r.related db row)

end

/-- The document of a request: that of its query, among all rows of its table. -/
def Request.document (summary : Summary) (db : Database) (r : Request) : Except EngineError Json :=
  r.query.document summary r.relationships db r.table (db.rowsOf r.table)

/-! ### An example -/

namespace Music

/-- Two artists, one of them without a name, and albums, one of them by no artist. -/
def database : Database :=
  { tables :=
      [{ name := "Artist"
         columns := [⟨"ArtistId", .integer⟩, ⟨"Name", .text⟩]
         rows := [[.int 1, .text "Accept"], [.int 2, .null]] },
       { name := "Album"
         columns := [⟨"AlbumId", .integer⟩, ⟨"ArtistId", .integer⟩, ⟨"Title", .text⟩]
         rows := [[.int 1, .int 1, .text "Breaker"], [.int 2, .int 2, .text "Facelift"],
           [.int 3, .null, .text "Outcesticide"], [.int 4, .int 1, .text "Blood"]] }] }

/-- An artist has albums, an album an artist. -/
def relationships : List TableRelationships :=
  [{ source := "Artist"
     relationships := [("Albums",
      { target := "Album", kind := .array, mapping := [("ArtistId", "ArtistId")] })] },
   { source := "Album"
     relationships := [("Artist",
      { target := "Artist", kind := .object, mapping := [("ArtistId", "ArtistId")] })] }]

/-- An album has a title before the name of the artist of an album. -/
def titleBeforeName : Filter :=
  .binary "less_than" { path := ["Albums"], name := "Title" }
    (.column { path := ["Albums", "Artist"], name := "Name" })

/-- Artists, with how many albums each has and the one of the last title, and whose it is. -/
def request : Request :=
  { table := "Artist"
    relationships
    query :=
      { fields := some
          [("name", .column "Name"),
           ("albums", .relationship "Albums"
            { fields := some
                [("title", .column "Title"),
                 ("artist", .relationship "Artist" { fields := some [("id", .column "ArtistId")] })]
              aggregates := some [("albums", .rowCount), ("last", .single "AlbumId" "max")]
              orderBy := some [{ column := "Title", direction := .desc }]
              limit := some 1 })]
        filter := some (.not titleBeforeName) } }

/-- The artist without a name. -/
def nameless : Tuple :=
  [("ArtistId", { content := .cell (.int 2), affinity := .integer }),
   ("Name", { content := .cell .null, affinity := .text })]

end Music

end DataAgent
