import DataAgent.Proofs.Compile.Defects
import DataAgent.Proofs.Request.Queries

/-!
# Proofs — Compile — Draws

How many aliases the compiler draws. A step draws `k` aliases (`Draws`) if it takes the counter from any
value to the one `k` further on when it succeeds, and not past that when it fails. Steps one after the
other draw the aliases of each (`Draws.bind`), so a query draws what it and the queries of its fields
cost (`draws_arrayQuery`): each is compiled once, although its filter may be compiled twice.

A step that fails before it reaches a part of the request draws nothing for that part, which is why one
number serves for both outcomes. When the compiler succeeds it has reached every query of the request
(`arrayQuery_placed`).
-/

namespace DataAgent

namespace Compile

open Sql

variable {α β : Type} {k k' : Nat}

/-! ### Steps -/

/-- The step advances the counter by `k` and gives a result that has the property, or it fails and
advances the counter by at most `k`. -/
def Draws (x : Compile α) (good : α → Prop) (k : Nat) : Prop :=
  ∀ n, match x n with
    | .ok a n'    => n' = n + k ∧ good a
    | .error _ n' => n' ≤ n + k

namespace Draws

variable {x : Compile α} {f : α → Compile β} {P : α → Prop} {Q : β → Prop}

theorem pure {a : α} (h : P a) : Draws (pure a) P 0 := fun _ => ⟨rfl, h⟩

theorem throw (e : CompileError) : Draws (throw e : Compile α) P k := fun n => Nat.le_add_right n k

/-- One step after another draws the aliases of both. -/
theorem bind (hx : Draws x P k) (hf : ∀ a, P a → Draws (f a) Q k') :
    Draws (x >>= f) Q (k + k') := by
  intro n
  have hrun := hx n
  show match EStateM.bind x f n with
    | .ok b _ => _
    | .error _ _ => _
  unfold EStateM.bind
  cases h : x n with
  | error e m =>
    -- the second step is not taken and draws nothing
    rw [h] at hrun
    exact hrun.trans (by omega)
  | ok a m =>
    rw [h] at hrun
    obtain ⟨rfl, ha⟩ := hrun
    have hnext := hf a ha (n + k)
    rwa [Nat.add_assoc] at hnext

/-- A step that draws nothing, before another. -/
theorem andThen (hx : Draws x P 0) (hf : ∀ a, P a → Draws (f a) Q k) : Draws (x >>= f) Q k := by
  have hbind := hx.bind hf
  rwa [Nat.zero_add] at hbind

/-- A step before another that draws nothing. -/
theorem followed (hx : Draws x P k) (hf : ∀ a, P a → Draws (f a) Q 0) : Draws (x >>= f) Q k :=
  hx.bind hf

/-- A result put together from that of a step. -/
theorem map (hx : Draws x P k) {g : α → β} (hg : ∀ a, P a → Q (g a)) :
    Draws (x >>= fun a => Pure.pure (g a)) Q k :=
  hx.followed fun a ha => .pure (hg a ha)

/-- The counter at the end of a run that succeeds. -/
theorem eq_of_ok (hx : Draws x P k) {n n' : Nat} {a : α} (h : x n = .ok a n') : n' = n + k := by
  have hrun := hx n
  rw [h] at hrun
  exact hrun.1

end Draws

theorem draws_ofExcept (x : Except CompileError α) : Draws (ofExcept x) Any 0 := by
  cases x with
  | ok a => exact .pure trivial
  | error e => exact .throw e

theorem draws_freshAlias (name : String) : Draws (freshAlias name) Any 1 :=
  fun _ => ⟨rfl, trivial⟩

theorem draws_bindTable (name : String) : Draws (bindTable name) (fun t => t.name = name) 1 :=
  fun _ => ⟨rfl, rfl⟩

/-! ### Filters -/

variable {c : Context}

theorem draws_followPath : ∀ (path : List String) (table : BoundTable) (reach : Reach),
    Draws (followPath c table path reach) Any path.length
  | [], _, _ => .pure trivial
  | name :: path, table, reach => by
    rw [List.length_cons, Nat.add_comm]
    refine (draws_ofExcept _).andThen fun r _ => ?_
    refine (draws_bindTable r.target).bind fun target _ => ?_
    exact (draws_ofExcept _).andThen fun join _ => draws_followPath path target _

theorem draws_columnAt (table : BoundTable) (column : ColumnPath) (reach : Reach) :
    Draws (columnAt c table column reach) Any column.path.length := by
  unfold columnAt
  split
  · exact .throw _
  · exact (draws_followPath column.path table reach).map fun _ _ => trivial

theorem draws_operandAt (table : BoundTable) (column : String) (reach : Reach) (operand : Operand) :
    Draws (operandAt c table column reach operand) Any operand.path.length := by
  cases operand with
  | column other => exact (draws_columnAt table other reach).map fun _ _ => trivial
  | scalar value => exact (draws_ofExcept _).map fun _ _ => trivial

mutual

theorem draws_filterCondition (table : BoundTable) : ∀ filter : Filter,
    Draws (filterCondition c table filter) Any filter.segments
  | .and filters => (draws_filterConditions table filters).map fun _ _ => trivial
  | .or filters => (draws_filterConditions table filters).map fun _ _ => trivial
  | .not filter => (draws_filterCondition table filter).map fun _ _ => trivial
  | .unary _ column =>
    (draws_ofExcept _).andThen fun _ _ => (draws_columnAt table column {}).map fun _ _ => trivial
  | .binary _ column operand =>
    (draws_ofExcept _).andThen fun _ _ => (draws_columnAt table column {}).bind fun left _ =>
      (draws_operandAt table column.name left.2 operand).map fun _ _ => trivial
  | .list _ column _ =>
    (draws_ofExcept _).andThen fun _ _ => (draws_columnAt table column {}).bind fun _ _ =>
      (draws_ofExcept _).map fun _ _ => trivial

theorem draws_filterConditions (table : BoundTable) : ∀ filters : List Filter,
    Draws (filterConditions c table filters) Any (Filter.listSegments filters)
  | [] => .pure trivial
  | filter :: filters =>
    (draws_filterCondition table filter).bind fun _ _ =>
      (draws_filterConditions table filters).map fun _ _ => trivial

end

/-! ### Rows of a page -/

theorem draws_rowCondition (table : BoundTable) (link : Option Link) (filter : Option Filter) :
    Draws (rowCondition c table link filter) Any (filter.elim 0 Filter.segments) := by
  have hown : Draws (ownCondition c table filter) Any (filter.elim 0 Filter.segments) := by
    cases filter with
    | none => exact .pure trivial
    | some f => exact draws_filterCondition table f
  rw [rowCondition_eq]
  exact hown.bind fun _ _ => (draws_ofExcept _).map fun _ _ => trivial

/-- The alias that the order of a page takes, if it has one. -/
def Page.orderCost (page : Page) : Nat := if page.orderBy.isEmpty then 0 else 1

/-- The relationships along the paths of the filter of a page. -/
def Page.segments (page : Page) : Nat := page.filter.elim 0 Filter.segments

theorem draws_rowsArray {name : String} {link : Option Link} {page : Page}
    {object : BoundTable → Compile Expr} (hobject : ∀ t, t.name = name → Draws (object t) Any k) :
    Draws (rowsArray c name link page object) Any (2 + page.orderCost + page.segments + k) := by
  have hcost : 2 + page.orderCost + page.segments + k =
      1 + (page.segments + (page.orderCost + k + 1)) := by omega
  rw [hcost]
  refine (draws_bindTable name).bind fun table htable => ?_
  refine (draws_rowCondition table link page.filter).bind fun condition _ => ?_
  unfold Page.orderCost
  -- an ordered page is bound a second time, and its objects are built over that
  split
  · rw [Nat.zero_add]
    refine (hobject table htable).bind fun row _ => ?_
    refine Draws.andThen (P := Any) (.pure trivial) fun objects _ => ?_
    exact (draws_freshAlias "rows").map fun _ _ => trivial
  · rw [Nat.add_assoc]
    refine (draws_bindTable name).bind fun ordered hordered => ?_
    refine (hobject ordered hordered).bind fun row _ => ?_
    refine Draws.andThen (P := Any) (.pure trivial) fun objects _ => ?_
    exact (draws_freshAlias "rows").map fun _ _ => trivial

theorem draws_aggregatesSelect (name : String) (link : Option Link) (page : Page)
    (aggregates : List (String × Aggregate)) :
    Draws (aggregatesSelect c name link page aggregates) Any (2 + page.segments) := by
  have hcost : 2 + page.segments = 1 + (page.segments + 1) := by omega
  rw [hcost]
  refine (draws_bindTable name).bind fun table _ => ?_
  refine (draws_rowCondition table link page.filter).bind fun condition _ => ?_
  refine (draws_bindTable name).followed fun rows _ => ?_
  exact (draws_ofExcept _).map fun _ _ => trivial

theorem draws_relatedObject {link : Link} {filter : Option Filter}
    {object : BoundTable → Compile Expr}
    (hobject : ∀ t, t.name = link.relationship.target → Draws (object t) Any k) :
    Draws (relatedObject c link filter object) Any (1 + filter.elim 0 Filter.segments + k) := by
  rw [Nat.add_assoc]
  refine (draws_bindTable _).bind fun table htable => ?_
  refine (draws_rowCondition table (some link) filter).bind fun condition _ => ?_
  exact (hobject table htable).map fun _ _ => trivial

/-! ### Queries -/

/-- The aliases that queries take in all. -/
def totalCost (queries : List PlacedQuery) : Nat := (queries.map PlacedQuery.aliasCost).sum

theorem totalCost_cons (p : PlacedQuery) (queries : List PlacedQuery) :
    totalCost (p :: queries) = p.aliasCost + totalCost queries := by
  simp [totalCost]

theorem totalCost_append (queries queries' : List PlacedQuery) :
    totalCost (queries ++ queries') = totalCost queries + totalCost queries' := by
  simp [totalCost]

mutual

theorem draws_arrayQuery : ∀ (q : Query) (depth : Nat) (name : String) (link : Option Link),
    Draws (arrayQuery c depth name link q) Any (totalCost (q.placed c.relationships .array name))
  | ⟨fields, none, filter, orderBy, limit, offset⟩, depth, name, link => by
    rw [Query.placed, totalCost_cons]
    unfold arrayQuery
    exact draws_rowsArray fun t ht => ht ▸ draws_fieldsObject fields depth t
  | ⟨none, some aggregates, filter, orderBy, limit, offset⟩, depth, name, link => by
    rw [Query.placed, totalCost_cons]
    unfold arrayQuery
    exact (draws_aggregatesSelect name link _ aggregates).bind fun s _ => .pure trivial
  | ⟨some fields, some aggregates, filter, orderBy, limit, offset⟩, depth, name, link => by
    let page : Page := pageOf ⟨some fields, some aggregates, filter, orderBy, limit, offset⟩
    have hcost : totalCost (Query.placed c.relationships .array name
          ⟨some fields, some aggregates, filter, orderBy, limit, offset⟩) =
        2 + page.segments + (2 + page.orderCost + page.segments +
          totalCost (fieldsPlaced c.relationships name (some fields))) := by
      have hself : PlacedQuery.aliasCost
          ⟨.array, ⟨some fields, some aggregates, filter, orderBy, limit, offset⟩⟩ =
          4 + page.orderCost + 2 * page.segments := rfl
      rw [Query.placed, totalCost_cons, hself]
      omega
    rw [hcost]
    unfold arrayQuery
    -- the page is compiled for the aggregates and again for the rows, its fields for the rows only
    refine (draws_aggregatesSelect name link page aggregates).bind fun s _ => ?_
    refine Draws.map (P := Any) (draws_rowsArray fun t ht => ?_) fun _ _ => trivial
    exact ht ▸ draws_fieldsObject (some fields) depth t

theorem draws_objectQuery : ∀ (q : Query) (depth : Nat) (link : Link),
    Draws (objectQuery c depth link q) Any
      (totalCost (q.placed c.relationships .object link.relationship.target))
  | ⟨fields, aggregates, filter, orderBy, limit, offset⟩, depth, link => by
    rw [Query.placed, totalCost_cons]
    unfold objectQuery
    split
    · exact .throw _
    · exact draws_relatedObject fun t ht => ht ▸ draws_fieldsObject fields depth t

theorem draws_fieldsObject : ∀ (fields : Option (List (String × Field))) (depth : Nat)
    (table : BoundTable),
    Draws (fieldsObject c depth table fields) Any
      (totalCost (fieldsPlaced c.relationships table.name fields))
  | none, _, _ => .pure trivial
  | some fields, depth, table => (draws_fieldEntries fields depth table).map fun _ _ => trivial

theorem draws_fieldEntries : ∀ (fields : List (String × Field)) (depth : Nat) (table : BoundTable),
    Draws (fieldEntries c depth table fields) Any
      (totalCost (entryPlaced c.relationships table.name fields))
  | [], _, _ => .pure trivial
  | (_, field) :: fields, depth, table => by
    rw [entryPlaced, totalCost_append]
    exact (draws_fieldValue field depth table).bind fun _ _ =>
      (draws_fieldEntries fields depth table).map fun _ _ => trivial

theorem draws_fieldValue : ∀ (field : Field) (depth : Nat) (table : BoundTable),
    Draws (fieldValue c depth table field) Any
      (totalCost (field.placed c.relationships table.name))
  | .column _, _, _ => .pure trivial
  | .relationship name q, depth, table => by
    unfold fieldValue
    split
    · exact .throw _
    · cases hr : c.lookup table.name name with
      | error e => exact .throw e
      | ok r =>
        rw [Field.placed, Context.relationshipOf_of_lookup hr, Option.elim_some]
        refine Draws.andThen (P := (r = ·)) (.pure rfl) fun _ h => ?_
        subst h
        cases hkind : r.kind with
        | object =>
          exact (draws_objectQuery q (depth + 1) { parent := table, name, relationship := r }).map
            fun _ _ => trivial
        | array =>
          exact (draws_arrayQuery q (depth + 1) r.target
            (some { parent := table, name, relationship := r })).map fun _ _ => trivial

end

/-! ### What is reached -/

section Reached

variable {n n' : Nat}

/-- The table that rows are found in decides which queries their fields hold; that of an ordered page
has the same name. -/
theorem ObjectsRun.exists_run {name : String} {page : Page} {object : BoundTable → Compile Expr}
    {condition : Expr} {m : Nat} {objects : Select}
    (h : ObjectsRun c name page object n condition m objects n') :
    ∃ t m' e, t.name = name ∧ object t m' = .ok e n' := by
  cases h with
  | direct _ run => exact ⟨_, _, _, rfl, run⟩
  | ordered _ run => exact ⟨_, _, _, rfl, run⟩

mutual

/-- A query that compiles has all its queries in place. -/
theorem arrayQuery_placed : ∀ (q : Query) {depth : Nat} {name : String} {link : Option Link}
    {n n' : Nat} {e : Expr}, arrayQuery c depth name link q n = .ok e n' →
      (q.placed c.relationships .array name).map PlacedQuery.query = q.queries
  | ⟨fields, none, filter, orderBy, limit, offset⟩, depth, name, link, _, _, _, h => by
    obtain ⟨_, _, _, _, -, hobjects, -, -⟩ := rowsArray_ok (arrayQuery_rows_ok rfl h)
    obtain ⟨t, _, _, rfl, hrun⟩ := hobjects.exists_run
    rw [Query.placed, Query.queries, List.map_cons, fieldsObject_placed fields hrun]
  | ⟨fields, some aggregates, filter, orderBy, limit, offset⟩, depth, name, link, _, _, _, h => by
    obtain ⟨s, m, -, ⟨rfl, -, -⟩ | ⟨rows, -, hrows, -⟩⟩ := arrayQuery_aggregates_ok rfl h
    · rfl
    · obtain ⟨_, _, _, _, -, hobjects, -, -⟩ := rowsArray_ok hrows
      obtain ⟨t, _, _, rfl, hrun⟩ := hobjects.exists_run
      rw [Query.placed, Query.queries, List.map_cons, fieldsObject_placed fields hrun]

theorem objectQuery_placed : ∀ (q : Query) {depth : Nat} {link : Link} {n n' : Nat} {e : Expr},
    objectQuery c depth link q n = .ok e n' →
      (q.placed c.relationships .object link.relationship.target).map PlacedQuery.query = q.queries
  | ⟨fields, aggregates, filter, orderBy, limit, offset⟩, depth, link, _, _, _, h => by
    obtain ⟨-, hrun⟩ := objectQuery_ok h
    obtain ⟨_, _, _, -, ho, -⟩ := relatedObject_ok hrun
    rw [Query.placed, Query.queries, List.map_cons]
    exact congrArg _ (fieldsObject_placed fields ho)

theorem fieldsObject_placed {depth : Nat} : ∀ (fields : Option (List (String × Field)))
    {table : BoundTable} {n n' : Nat} {e : Expr}, fieldsObject c depth table fields n = .ok e n' →
      (fieldsPlaced c.relationships table.name fields).map PlacedQuery.query = fieldsQueries fields
  | none, _, _, _, _, _ => rfl
  | some fields, _, _, _, _, h => by
    obtain ⟨entries, hentries, -⟩ := fieldsObject_some_ok h
    exact fieldEntries_placed fields hentries

theorem fieldEntries_placed {depth : Nat} : ∀ (fields : List (String × Field))
    {table : BoundTable} {n n' : Nat} {entries : List (String × Expr)},
    fieldEntries c depth table fields n = .ok entries n' →
      (entryPlaced c.relationships table.name fields).map PlacedQuery.query = entryQueries fields
  | [], _, _, _, _, _ => rfl
  | (_, field) :: fields, _, _, _, _, h => by
    obtain ⟨e, m, rest, he, hrest, -⟩ := fieldEntries_cons_ok h
    rw [entryPlaced, entryQueries, List.map_append, fieldValue_placed field he,
      fieldEntries_placed fields hrest]

theorem fieldValue_placed {depth : Nat} : ∀ (field : Field) {table : BoundTable} {n n' : Nat}
    {e : Expr}, fieldValue c depth table field n = .ok e n' →
      (field.placed c.relationships table.name).map PlacedQuery.query = field.queries
  | .column _, _, _, _, _, _ => rfl
  | .relationship name q, table, _, _, _, h => by
    obtain ⟨r, e, hr, -, ⟨hkind, he⟩ | ⟨hkind, he⟩⟩ := fieldValue_relationship_ok h
    · rw [Field.placed, Context.relationshipOf_of_lookup hr, Option.elim_some, hkind]
      exact objectQuery_placed q he
    · rw [Field.placed, Context.relationshipOf_of_lookup hr, Option.elim_some, hkind]
      exact arrayQuery_placed q he

end

end Reached

end Compile

end DataAgent
