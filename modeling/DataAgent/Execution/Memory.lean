import DataAgent.Definition.Outline
import DataAgent.Execution.Engine
import DataAgent.Sql.Eval

/-!
# Execution — Memory

The engine that evaluates statements over databases held in memory. A file that holds no database
opens, but whatever reads it fails; one that is not there does not open, unless it may be
created.
-/

namespace DataAgent

/-- A table together with the statement that created it, or another entry of the schema that is
a table by name only. -/
structure StoredTable where
  table : Sql.Table
  definition : Option String

namespace StoredTable

/-- The text of a statement that creates a table. -/
def definitionText (name : String) (columns : List (String × String)) : String :=
  let column : String × String → List Char := fun (name, declared) =>
    (Sql.Piece.quoteIdentifier name ++ " " ++ declared).toList
  String.ofList ("CREATE TABLE ".toList ++ (Sql.Piece.quoteIdentifier name).toList ++ " (".toList ++
    [',', ' '].intercalate (columns.map column) ++ [')'])

/-- A table of columns with declared types, and no rows. -/
def emptyTable (name : String) (columns : List (String × String)) : Sql.Table :=
  { name, rows := []
    columns := columns.map fun (name, declared) => { name, affinity := .ofDeclared declared } }

/-- A table of columns with declared types, and its rows. -/
def ofColumns (name : String) (columns : List (String × String)) (rows : List (List Sql.Value)) :
    StoredTable :=
  { table := rows.foldl Sql.Table.insert (emptyTable name columns)
    definition := some (definitionText name columns) }

/-- The rows are in order by the columns. -/
def inOrder (columns : List Nat) (a b : List Sql.Cell) : Bool :=
  let cell (row : List Sql.Cell) (i : Nat) : Sql.Cell := row[i]?.getD .null
  columns.foldr (fun i rest => match (cell a i).compare (cell b i) with
    | .lt => true
    | .gt => false
    | .eq => rest) true

/-- The highest number in a column, zero if there is none. -/
def highest (column : Nat) (rows : List (List Sql.Cell)) : Int :=
  rows.foldl (fun top (row : List Sql.Cell) => match row[column]? with
    | some (.int n) => max top n
    | _             => top) 0

/-- The table with one more row, which takes the next number if it brings none. -/
def insertNumbered (column : Nat) (t : Sql.Table) (values : List Sql.Value) : Sql.Table :=
  match values[column]? with
  | some .null => t.insert (values.set column (.int (highest column t.rows + 1)))
  | _          => t.insert values

/-- The table that a statement creates, and its rows in the order the table keeps them in. -/
def ofOutline (o : Definition.Outline) (rows : List (List Sql.Value)) : StoredTable :=
  let insert := match o.rowNumber with
    | some column => insertNumbered column
    | none        => Sql.Table.insert
  let filled := rows.foldl insert (emptyTable o.name o.columns)
  { table := { filled with
      rows := filled.rows.mergeSort (inOrder (o.rowNumber.toList ++ o.order)) }
    definition := some o.definition }

/-- The table of the last row numbers. -/
def sequence : StoredTable :=
  { table := emptyTable "sqlite_sequence" [("name", ""), ("seq", "")]
    definition := some "CREATE TABLE sqlite_sequence(name,seq)" }

/-- The name is that of the table. -/
def isNamed (name : String) (t : StoredTable) : Bool := Sql.sameName t.table.name name

/-- The tables with one more. The first whose row numbers are never used twice brings the table
of the last row numbers with it. -/
def add (tables : List StoredTable) (o : Definition.Outline) (rows : List (List Sql.Value)) :
    List StoredTable :=
  let stored := ofOutline o rows
  let tables := tables ++ [stored]
  if !o.autoincrement then tables
  else
    let tables := if tables.any (isNamed sequence.table.name) then tables else tables ++ [sequence]
    if rows.isEmpty then tables
    else
      let last : List Sql.Value :=
        [.string o.name, .int (highest (o.rowNumber.getD 0) stored.table.rows)]
      tables.map fun t =>
        if t.isNamed sequence.table.name then { t with table := t.table.insert last } else t

end StoredTable

/-- What stands in a file. -/
inductive DatabaseFile
  | tables (tables : List StoredTable)
  | other

namespace DatabaseFile

/-- A file with a text in it; an empty file is a database without tables. -/
def ofText (text : String) : DatabaseFile := if text.isEmpty then .tables [] else .other

/-- The database in the file. -/
def database : DatabaseFile → Except Sql.EngineError Sql.Database
  | .tables stored => .ok { tables := stored.map StoredTable.table }
  | .other         => .error .notADatabase

/-- A row of a statement as texts. -/
def resultRow (tuple : Sql.Tuple) : ResultRow :=
  tuple.map fun (name, d) => (name, match d.cell.toText with
    | .text s => some s
    | _       => none)

/-- A statement that has no time to run is interrupted. -/
def query (file : DatabaseFile) (overdue : Bool) (s : Sql.Select) :
    Except Sql.EngineError (List ResultRow) := do
  let db ← file.database
  if overdue then .error .interrupted
  return (← db.run s).map resultRow

/-- The plan of a statement, which has one line for the row it yields. -/
def explain (file : DatabaseFile) (s : Sql.Select) : Except Sql.EngineError (List String) := do
  let db ← file.database
  let _ ← s.check db []
  return ["SCAN CONSTANT ROW"]

/-- The tables in the order they were created. -/
def entries : DatabaseFile → Except Sql.EngineError (List SchemaEntry)
  | .tables stored =>
    .ok (stored.map fun t => { name := t.table.name, definition := t.definition })
  | .other => .error .notADatabase

end DatabaseFile

/-- Files by their paths, and the pools that have a connection to one. -/
structure Storage where
  files : Members DatabaseFile := []
  /-- The serial numbers of the pools. -/
  connected : List Nat := []

namespace Storage

/-- The steps of a path. -/
def pathSteps : List Char → List (List Char)
  | [] => [[]]
  | c :: rest =>
    match c, pathSteps rest with
    | '/', steps         => [] :: steps
    | c,   step :: steps => (c :: step) :: steps
    | c,   []            => [[c]]

/-- The path without steps that stay where they are. -/
def plainPath (path : String) : String :=
  String.ofList (['/'].intercalate ((pathSteps path.toList).filter (· ≠ ['.'])))

/-- A file that is not there can be created: only in the folder itself, and by its name. -/
def mayCreate (c : ConnectionSettings) (path : String) : Bool :=
  c.createIfMissing && !c.readOnly && !path.isEmpty && !path.toList.contains '/'

/-- The file that a pool connects to. -/
def connect (pool : Pool) : StateM Storage (Except Sql.EngineError DatabaseFile) := do
  let storage ← get
  let path := plainPath pool.connection.path
  let connected := if storage.connected.contains pool.serial then storage.connected
    else storage.connected ++ [pool.serial]
  if pool.limits.maxConnections = 0 then return .error .unavailable
  match Members.get? storage.files path with
  | some file =>
    set { storage with connected }
    return .ok file
  | none =>
    if mayCreate pool.connection path then
      set { files := storage.files ++ [(path, .tables [])], connected : Storage }
      return .ok (.tables [])
    else return .error .unavailable

/-- The engine over files held in memory. -/
def engine : Engine Storage where
  query := fun pool limit s => do
    let overdue := limit == some 0
    let file ← connect pool
    return { overdue, result := do (← file).query overdue s }
  explain := fun pool limit s => do
    let file ← connect pool
    return { overdue := limit == some 0, result := do (← file).explain s }
  healthy := fun pool => do return (← connect pool).map fun _ => true
  entries := fun pool => do
    let file ← connect pool
    return do (← file).entries
  connections := fun storage pool =>
    let open_ := if storage.connected.contains pool.serial then 1 else 0
    { size := open_, idle := open_ }

end Storage

end DataAgent
