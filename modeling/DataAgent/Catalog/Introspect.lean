import DataAgent.Catalog.Table
import DataAgent.Definition.Statement
import DataAgent.Execution.Engine

/-!
# Catalog — Introspect

What a database's list of tables tells about them. Each table is described by the statement that
created it, which a reader of statements, given as an argument, makes sense of.
-/

namespace DataAgent

/-- Why a table cannot be described. -/
inductive IntrospectError
  | missingDefinition (table : String)
  | unparseable (table : String)
  | notCreateTable (table : String)
  deriving DecidableEq, Repr

/-- The wording of an error. -/
def IntrospectError.message : IntrospectError → String
  | .missingDefinition table => "table '" ++ table ++ "' has no stored definition"
  | .unparseable table => "could not parse the definition of table '" ++ table ++ "'"
  | .notCreateTable table =>
    "the definition of table '" ++ table ++ "' is not a CREATE TABLE statement"

/-- Reads the statements of a text, if it is a list of well-formed ones. -/
abbrev DefinitionReader := String → Option (List Definition.Statement)

/-- A column as it is reported. A declared type that is not a known one is a string. -/
def ColumnInfo.ofDefinition (c : Definition.Column) : ColumnInfo :=
  { name := c.name
    type := (ScalarType.ofDeclared c.type).getD .string
    nullable := !c.options.contains .notNull }

namespace TableInfo

/-- The columns that say they are keys, once for each time they say so, then those of the
table's own keys. -/
def primaryKeyOf (t : Definition.CreateTable) : List String :=
  t.columns.flatMap (fun c => (c.options.filter (· = .primaryKey)).map fun _ => c.name) ++
    t.constraints.flatMap fun c => match c with
      | .primaryKey columns => columns
      | .other              => []

/-- A table by the name of its entry and the text that created it. -/
def ofDefinition (read : DefinitionReader) (name text : String) :
    Except IntrospectError TableInfo :=
  match read text with
  | none => .error (.unparseable name)
  | some (.createTable t :: _) =>
    .ok { name
          primaryKey := primaryKeyOf t
          description := some text
          columns := t.columns.map ColumnInfo.ofDefinition }
  | some _ => .error (.notCreateTable name)

/-- A table by its entry. -/
def ofEntry (read : DefinitionReader) (e : SchemaEntry) : Except IntrospectError TableInfo :=
  match e.definition with
  | some text => ofDefinition read e.name text
  | none      => .error (.missingDefinition e.name)

end TableInfo

/-- The tables that the filter admits, in the order of their entries. -/
def introspect (read : DefinitionReader) (filter : TableFilter) (entries : List SchemaEntry) :
    Except IntrospectError (List TableInfo) :=
  (entries.filter fun e => filter.includes e.name).mapM (TableInfo.ofEntry read)

end DataAgent
