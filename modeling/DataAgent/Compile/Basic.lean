import DataAgent.Config.Settings
import DataAgent.Sql.Expr

/-!
# Compile — Basic

What the compiler of requests works with: its errors, a counter of aliases that every step
advances and that no error takes back, and the tables it has bound to an alias.
-/

namespace DataAgent

/-- Why a request cannot be compiled. -/
inductive CompileError
  | unknownRelationship (table relationship : String)
  | emptyMapping (table relationship : String)
  | tooDeep (limit : Nat)
  | pathTooLong (column : String) (length limit : Nat)
  | unsupportedOperator (operator column : String)
  | unsupportedFunction (function column : String)
  | unsupportedValue (value : Json) (column : String)
  | unsupportedAggregates (relationship : String)
  deriving Repr

/-- The wording of an error. -/
def CompileError.message : CompileError → String
  | .unknownRelationship table relationship =>
    "relationship '" ++ relationship ++ "' is not defined for table '" ++ table ++ "'"
  | .emptyMapping table relationship =>
    "relationship '" ++ relationship ++ "' of table '" ++ table ++ "' has an empty column mapping"
  | .tooDeep limit =>
    "relationship fields are nested deeper than the limit of " ++ toString limit
  | .pathTooLong column length limit =>
    "the path to column '" ++ column ++ "' traverses " ++ toString length ++
      " relationships, more than the limit of " ++ toString limit
  | .unsupportedOperator operator column =>
    "unsupported operator '" ++ operator ++ "' on column '" ++ column ++ "'"
  | .unsupportedFunction function column =>
    "unsupported aggregate function '" ++ function ++ "' on column '" ++ column ++ "'"
  | .unsupportedValue value column =>
    "unsupported comparison value " ++ value.print ++ " for column '" ++ column ++ "'"
  | .unsupportedAggregates relationship =>
    "aggregates are not supported on object relationship '" ++ relationship ++ "'"

/-- A step of the compiler: the state is the index of the next alias. -/
abbrev Compile (α : Type) := EStateM CompileError Nat α

namespace Compile

/-- What stays the same throughout a request. -/
structure Context where
  relationships : List TableRelationships
  settings : QuerySettings

/-- A table of the database bound to an alias. -/
structure BoundTable where
  name : String
  label : Sql.TableAlias
  deriving DecidableEq, Repr

namespace BoundTable

/-- A column of the table. -/
def column (t : BoundTable) (name : String) : Sql.Expr :=
  .column (.stored (.aliased t.label) name)

/-- The table as the source of a select. -/
def source (t : BoundTable) : Sql.Source := .table (.table t.name) t.label

/-- The table joined to others. -/
def join (t : BoundTable) : Sql.CrossJoin := { table := .table t.name, label := t.label }

end BoundTable

/-- A result that needs no alias. -/
def ofExcept {α : Type} : Except CompileError α → Compile α
  | .ok a    => pure a
  | .error e => throw e

/-- An alias that no other has. -/
def freshAlias (name : String) : Compile Sql.TableAlias := fun next =>
  .ok { name, index := next } (next + 1)

/-- A table bound to an alias of its own. -/
def bindTable (table : String) : Compile BoundTable := do
  return { name := table, label := ← freshAlias table }

namespace Context

/-- The relationship of a table. Only the first entry for the table counts. -/
def lookup (c : Context) (table relationship : String) : Except CompileError Relationship :=
  match (c.relationships.find? fun t => t.source = table).bind
      fun t => Members.get? t.relationships relationship with
  | some r => .ok r
  | none => .error (.unknownRelationship table relationship)

/-- The expression, marked with the rule that made it if marks are wanted. -/
def tag (c : Context) (rule : String) (e : Sql.Expr) : Sql.Expr :=
  if c.settings.debugTags then .tagged rule e else e

end Context

/-- The conditions that relate a row of one table to a row of another. -/
def joinCondition (source target : BoundTable) (name : String) (r : Relationship) :
    Except CompileError Sql.Expr :=
  if r.mapping.isEmpty then .error (.emptyMapping source.name name)
  else .ok (r.mapping.foldl
    (fun e (left, right) => e.conj (.compare .equal (source.column left) (target.column right)))
    .always)

end Compile

end DataAgent
