import DataAgent.Sql.Database
import DataAgent.Sql.Render

/-!
# Sql — Check

Whether the tables and columns that a statement names are there. This is found before any row is
read, so a statement over empty tables fails as well.
-/

namespace DataAgent.Sql

/-- The names of the columns that are in scope, by alias, innermost select first. -/
abbrev Scope := List (TableAlias × List String)

/-- The name a table has in the database. -/
def TableRef.tableName : TableRef → String
  | .table name    => name
  | .aliased label => label.label

/-- What a table reference refers to among the aliases in scope. -/
def TableRef.find? {α : Type} (bindings : List (TableAlias × α)) : TableRef → Option α
  | .aliased label => bindings.lookup label
  | .table name    => (bindings.find? fun b => sameName b.1.label name).map (·.2)

/-- The table and the name of a column. -/
def ColumnRef.parts : ColumnRef → TableRef × String
  | .stored table name  => (table, name)
  | .derived table name => (table, name)

/-- The column is in scope. -/
def ColumnRef.check (scope : Scope) (c : ColumnRef) : Except EngineError Unit :=
  let (table, name) := c.parts
  match table.find? scope with
  | some names =>
    if names.any fun n => sameName n name then .ok () else .error (.unknownColumn name)
  | none => .error (.unknownColumn name)

/-- The columns of a table. -/
def Database.columns (db : Database) (t : TableRef) : Except EngineError (List String) :=
  match db.table? t.tableName with
  | some table => .ok (table.columns.map TableColumn.name)
  | none       => .error (.unknownTable t.tableName)

/-- What joined tables bring into scope. -/
def checkJoins (db : Database) : List CrossJoin → Except EngineError Scope
  | [] => return []
  | j :: joins => return (j.label, ← db.columns j.table) :: (← checkJoins db joins)

/-- What is counted is in scope. -/
def Count.check (scope : Scope) : Count → Except EngineError Unit
  | .rows            => .ok ()
  | .values column   => column.check scope
  | .distinct column => column.check scope

mutual

/-- The names in an expression are known. -/
def Expr.check (db : Database) (scope : Scope) : Expr → Except EngineError Unit
  | .and left right       => do left.check db scope; right.check db scope
  | .or left right        => do left.check db scope; right.check db scope
  | .not operand          => operand.check db scope
  | .compare _ left right => do left.check db scope; right.check db scope
  | .isIn operand options => do operand.check db scope; checkList db scope options
  | .isNull operand       => operand.check db scope
  | .call _ args          => checkList db scope args
  | .existsRow select     => do let _ ← select.check db scope
  | .object entries       => do let _ ← checkItems db scope entries
  | .column column        => column.check scope
  | .value _              => .ok ()
  | .count count          => count.check scope
  | .subselect select     => do let _ ← select.check db scope
  | .tagged _ operand     => operand.check db scope

/-- The names in expressions are known. -/
def checkList (db : Database) (scope : Scope) : List Expr → Except EngineError Unit
  | [] => .ok ()
  | e :: es => do e.check db scope; checkList db scope es

/-- The names in named expressions are known; these are the names they have. -/
def checkItems (db : Database) (scope : Scope) :
    List (String × Expr) → Except EngineError (List String)
  | [] => return []
  | (name, e) :: items => do e.check db scope; return name :: (← checkItems db scope items)

/-- The names in an order are known. -/
def checkOrder (db : Database) (scope : Scope) : List (Expr × Direction) → Except EngineError Unit
  | [] => .ok ()
  | (e, _) :: rest => do e.check db scope; checkOrder db scope rest

/-- The columns that a select list yields. -/
def SelectList.check (db : Database) (own outer : Scope) :
    SelectList → Except EngineError (List String)
  | .items items => checkItems db (own ++ outer) items
  | .star        => return own.flatMap (·.2)
  | .one         => return ["1"]

/-- What the source of a select brings into scope. -/
def Source.check (db : Database) (outer : Scope) : Source → Except EngineError Scope
  | .table table label   => return [(label, ← db.columns table)]
  | .select select label => return [(label, ← select.check db outer)]

/-- What the source of a select, if there is one, brings into scope. -/
def checkSource (db : Database) (outer : Scope) : Option Source → Except EngineError Scope
  | none        => return []
  | some source => source.check db outer

/-- The names in a select are known; these are its columns. -/
def Select.check (db : Database) (outer : Scope) : Select → Except EngineError (List String)
  | { list, source, joins, condition, orderBy, .. } => do
    let own := (← checkSource db outer source) ++ (← checkJoins db joins)
    condition.check db (own ++ outer)
    checkOrder db (own ++ outer) orderBy
    list.check db own outer

end

end DataAgent.Sql
