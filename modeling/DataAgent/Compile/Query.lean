import DataAgent.Compile.Filter

/-!
# Compile — Query

Requests as statements. A query over a table becomes one expression whose value is its JSON: an
array of the rows' objects, built over the rows that remain after filtering, ordering and paging,
or an object with the aggregates over those rows and, if fields are asked for, the rows. A
relationship field holds such an expression, restricted to the rows related to the row at hand;
an object relationship holds the first of them. `Request.compile` selects the expression for the
root table.
-/

namespace DataAgent

namespace Compile

/-- What restricts a query to the rows related to a row of a parent table. -/
structure Link where
  parent : BoundTable
  name : String
  relationship : Relationship

/-- Which rows of a table a query is about. -/
structure Page where
  filter : Option Filter
  orderBy : List OrderBy
  limit : Sql.Limit

/-- The condition on the rows: the filter, and that they are related to the parent row. -/
def rowCondition (c : Context) (table : BoundTable) (link : Option Link)
    (filter : Option Filter) : Compile Sql.Expr := do
  let own ← match filter with
    | none => pure .always
    | some f => filterCondition c table f
  let join ← match link with
    | none => pure .always
    | some l => ofExcept (joinCondition l.parent table l.name l.relationship)
  return own.conj join

/-- The condition of a select, marked unless it is no condition. -/
def whereCondition (c : Context) (e : Sql.Expr) : Sql.Expr :=
  if e.isTrue then e else c.tag "where" e

/-- The columns to order by. -/
def orderColumns (table : BoundTable) (orderBy : List OrderBy) : List (Sql.Expr × Direction) :=
  orderBy.map fun o => (table.column o.column, o.direction)

/-- All columns of the rows of a page, in their order. -/
def pageRows (c : Context) (table : BoundTable) (page : Page) (condition : Sql.Expr) :
    Sql.Select :=
  { list := .star
    source := some table.source
    condition := whereCondition c condition
    orderBy := orderColumns table page.orderBy
    limit := page.limit }

/-- The array of the rows' objects. Ordered rows are selected first and the objects are built
over them, because objects that are built while rows are sorted lose that they are JSON. -/
def rowsArray (c : Context) (name : String) (link : Option Link) (page : Page)
    (object : BoundTable → Compile Sql.Expr) : Compile Sql.Expr := do
  let table ← bindTable name
  let condition ← rowCondition c table link page.filter
  let objects : Sql.Select ←
    if page.orderBy.isEmpty then do
      pure { Sql.Select.ofItems [("j", ← object table)] with
        source := some table.source
        condition := whereCondition c condition
        limit := page.limit }
    else do
      let ordered ← bindTable name
      pure { Sql.Select.ofItems [("j", ← object ordered)] with
        source := some (.select (pageRows c table page condition) ordered.label) }
  let rows ← freshAlias "rows"
  let item := Sql.Expr.asJson (.column (.derived (.aliased rows) "j"))
  return c.tag "array_relationship" (.subselect
    { Sql.Select.ofItems [("array", .call .jsonGroupArray [item])] with
      source := some (.select objects rows) })

/-- The function an aggregate applies to a column, by name. -/
def aggregateFunction (function column : String) : Except CompileError Sql.Function :=
  match function with
  | "avg" => .ok .avg
  | "sum" => .ok .sum
  | "min" => .ok .min
  | "max" => .ok .max
  | _ => .error (.unsupportedFunction function column)

/-- An aggregate over the rows of a table. -/
def aggregate (table : BoundTable) : Aggregate → Except CompileError Sql.Expr
  | .rowCount => .ok (.count .rows)
  | .columnCount column distinct =>
    let ref := .stored (.aliased table.label) column
    .ok (.count (if distinct then .distinct ref else .values ref))
  | .single column function => do
    return .call (← aggregateFunction function column) [table.column column]

/-- The select of an object with the aggregates over the rows of a page. -/
def aggregatesSelect (c : Context) (name : String) (link : Option Link) (page : Page)
    (aggregates : List (String × Aggregate)) : Compile Sql.Select := do
  let table ← bindTable name
  let condition ← rowCondition c table link page.filter
  let rows ← bindTable name
  let entries ← ofExcept (aggregates.mapM fun (key, a) => return (key, ← aggregate rows a))
  return { Sql.Select.ofItems [("aggregates", c.tag "aggregates" (.object entries))] with
    source := some (.select (pageRows c table page condition) rows.label) }

/-- The first row of a table that is related to a parent row, as an object with an array of its
object. -/
def relatedObject (c : Context) (link : Link) (filter : Option Filter)
    (object : BoundTable → Compile Sql.Expr) : Compile Sql.Expr := do
  let table ← bindTable link.relationship.target
  let condition ← rowCondition c table (some link) filter
  let row ← object table
  return c.tag "object_relationship" (.subselect
    { Sql.Select.ofItems [("object", .object [("rows", .call .jsonArray [row])])] with
      source := some table.source
      condition := whereCondition c condition })

mutual

/-- The JSON of a query over a table. -/
def arrayQuery (c : Context) (depth : Nat) (table : String) (link : Option Link) :
    Query → Compile Sql.Expr
  | { fields, aggregates, filter, orderBy, limit, offset } => do
    let page : Page := { filter, orderBy := orderBy.getD [], limit := { limit, offset } }
    match aggregates with
    | none => rowsArray c table link page fun t => fieldsObject c depth t fields
    | some aggregates =>
      let summary ← aggregatesSelect c table link page aggregates
      let first := ("aggregates", Sql.Expr.asJson (.subselect summary))
      if fields.isNone then return .object [first]
      let rows ← rowsArray c table link page fun t => fieldsObject c depth t fields
      return .object [first, ("rows", rows.asJson)]

/-- The JSON of a query over the one row related to a parent row. -/
def objectQuery (c : Context) (depth : Nat) (link : Link) : Query → Compile Sql.Expr
  | { fields, aggregates, filter, .. } => do
    if aggregates.isSome then throw (.unsupportedAggregates link.name)
    relatedObject c link filter fun t => fieldsObject c depth t fields

/-- The object of a row of a table. -/
def fieldsObject (c : Context) (depth : Nat) (table : BoundTable) :
    Option (List (String × Field)) → Compile Sql.Expr
  | none => return c.tag "json_object" (.object [])
  | some fields => return c.tag "json_object" (.object (← fieldEntries c depth table fields))

/-- The entries of a row's object. -/
def fieldEntries (c : Context) (depth : Nat) (table : BoundTable) :
    List (String × Field) → Compile (List (String × Sql.Expr))
  | [] => return []
  | (key, field) :: rest =>
    return (key, ← fieldValue c depth table field) :: (← fieldEntries c depth table rest)

/-- The value of a field of a row. -/
def fieldValue (c : Context) (depth : Nat) (table : BoundTable) : Field → Compile Sql.Expr
  | .column name => return table.column name
  | .relationship name query => do
    if c.settings.maxRelationshipDepth < depth + 1 then
      throw (.tooDeep c.settings.maxRelationshipDepth)
    let relationship ← ofExcept (c.lookup table.name name)
    let link : Link := { parent := table, name, relationship }
    let e ← match relationship.kind with
      | .object => objectQuery c (depth + 1) link query
      | .array => arrayQuery c (depth + 1) relationship.target (some link) query
    return (c.tag "relationship" e).asJson

end

end Compile

/-- A compiled request. -/
structure Plan where
  rootTable : String
  select : Sql.Select
  /-- The column of the select's only row that holds the whole response. -/
  resultColumn : String

/-- The statement of a request. -/
def Request.compile (settings : QuerySettings) (r : Request) : Except CompileError Plan :=
  let c : Compile.Context := { relationships := r.relationships, settings }
  match (Compile.arrayQuery c 0 r.table none r.query).run 0 with
  | .ok e _ =>
    .ok { rootTable := r.table
          select := .ofItems [("data", c.tag "query" e)]
          resultColumn := "data" }
  | .error e _ => .error e

end DataAgent
