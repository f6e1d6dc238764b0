import DataAgent.Sql.Cell
import DataAgent.Sql.Piece
import DataAgent.Request.Query
import Mathlib

/-!
# Proofs — Request — Scalars

The scalars that the filters of a request compare with, in the order in which a statement for it
mentions them (`Request.scalars`). The rows of a query are found before they are filtered: the
fields come first, and with them the queries of relationship fields, then the filter. Aggregates
have the filter once more, before all this. Strings and numbers among the scalars are bound to
parameters (`Json.param`); nulls and booleans are not.

`Request.blank` empties these: the same text stands for each string and number. Two requests with
the same blank differ at most in the strings and numbers that their filters compare with.
-/

namespace DataAgent

open Sql (Param fitsWord)

/-! ### Scalars -/

/-- The parameter that a scalar is bound to, if it is. An integer beyond sixty-four bits is bound as
a double. -/
def Json.param : Json → Option Param
  | .str s           => some (.string s)
  | .num (.int n)    => some (if fitsWord n then .int n else .double (.ofInt n))
  | .num (.double x) => some (.double x)
  | .null | .bool _ | .arr _ | .obj _ => none

/-- The scalar is a string or a number. -/
def Json.isBound : Json → Bool
  | .str _ | .num _ => true
  | .null | .bool _ | .arr _ | .obj _ => false

/-- The scalar that a column is compared with, unless it is a column. -/
def Operand.scalars : Operand → List Json
  | .column _     => []
  | .scalar value => [value]

mutual

/-- The scalars of a filter, from left to right. -/
def Filter.scalars : Filter → List Json
  | .and filters | .or filters => Filter.listScalars filters
  | .not filter                => filter.scalars
  | .unary _ _                 => []
  | .binary _ _ operand        => operand.scalars
  | .list _ _ values           => values

/-- The scalars of filters. -/
def Filter.listScalars : List Filter → List Json
  | []                => []
  | filter :: filters => filter.scalars ++ Filter.listScalars filters

end

mutual

/-- The scalars of a query. A query over the one row of an object relationship has no aggregates, so
they are those of its fields and then of its filter. -/
def Query.scalars : Query → List Json
  | ⟨fields, aggregates, filter, _, _, _⟩ =>
    let own := filter.elim [] Filter.scalars
    let rows := fieldsScalars fields ++ own
    match aggregates with
    | none   => rows
    | some _ => if fields.isNone then own else own ++ rows

/-- The scalars of fields, if there are any. -/
def fieldsScalars : Option (List (String × Field)) → List Json
  | none        => []
  | some fields => entryScalars fields

/-- The scalars of fields, in their order. -/
def entryScalars : List (String × Field) → List Json
  | []                    => []
  | (_, field) :: fields => field.scalars ++ entryScalars fields

/-- The scalars of a field: those of its query. -/
def Field.scalars : Field → List Json
  | .column _             => []
  | .relationship _ query => query.scalars

end

/-- The scalars of a request. -/
def Request.scalars (r : Request) : List Json := r.query.scalars

/-- The strings and numbers among the scalars of a request, to which its parameters belong one by
one. -/
def Request.bound (r : Request) : List Json := r.scalars.filter Json.isBound

theorem Json.isSome_param (j : Json) : j.param.isSome = j.isBound := by
  cases j with
  | num n => cases n <;> rfl
  | _ => rfl

/-- The parameters of scalars belong to the strings and numbers among them, one by one. -/
theorem getElem?_params (i : Nat) (scalars : List Json) :
    (scalars.filterMap Json.param)[i]? = (scalars.filter Json.isBound)[i]?.bind Json.param := by
  induction scalars generalizing i with
  | nil => rfl
  | cons j scalars ih =>
    have hbound := j.isSome_param
    cases hparam : j.param with
    | none =>
      rw [hparam] at hbound
      simp [hparam, ← hbound, ih]
    | some p =>
      rw [hparam] at hbound
      cases i with
      | zero => simp [hparam, ← hbound]
      | succ i => simp [hparam, ← hbound, ih]

/-! ### Blanks -/

/-- The scalar, emptied if it is a string or a number. -/
def Json.blank (j : Json) : Json := if j.isBound then .str "" else j

/-- What a column is compared with, emptied. -/
def Operand.blank : Operand → Operand
  | .column other => .column other
  | .scalar value => .scalar value.blank

mutual

/-- The filter with its strings and numbers emptied. -/
def Filter.blank : Filter → Filter
  | .and filters => .and (Filter.listBlank filters)
  | .or filters => .or (Filter.listBlank filters)
  | .not filter => .not filter.blank
  | .unary operator column => .unary operator column
  | .binary operator column operand => .binary operator column operand.blank
  | .list operator column values => .list operator column (values.map Json.blank)

/-- The filters with their strings and numbers emptied. -/
def Filter.listBlank : List Filter → List Filter
  | []                => []
  | filter :: filters => filter.blank :: Filter.listBlank filters

end

mutual

/-- The query with the strings and numbers of all its filters emptied. -/
def Query.blank : Query → Query
  | ⟨fields, aggregates, filter, orderBy, limit, offset⟩ =>
    ⟨fieldsBlank fields, aggregates, filter.map Filter.blank, orderBy, limit, offset⟩

/-- The fields with the filters of their queries emptied. -/
def fieldsBlank : Option (List (String × Field)) → Option (List (String × Field))
  | none        => none
  | some fields => some (membersBlank fields)

/-- The fields, in their order, with the filters of their queries emptied. -/
def membersBlank : List (String × Field) → List (String × Field)
  | []                     => []
  | (key, field) :: fields => (key, field.blank) :: membersBlank fields

/-- The field with the filters of its query emptied. -/
def Field.blank : Field → Field
  | .column name             => .column name
  | .relationship name query => .relationship name query.blank

end

/-- The request with the strings and numbers of all its filters emptied. -/
def Request.blank (r : Request) : Request := { r with query := r.query.blank }

end DataAgent
