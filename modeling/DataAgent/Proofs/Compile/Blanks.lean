import DataAgent.Proofs.Compile.Params
import DataAgent.Proofs.Sql.Blanks

/-!
# Proofs — Compile — Blanks

The compiler does not look at the strings and numbers that filters compare with: emptying them in a
request empties them in what it compiles to, and nothing else changes, neither the aliases nor an
error (`Request.compile_blank`). So requests that differ only in such scalars fail alike, or have
statements of the same text (`Request.compile_of_blank_eq`).

Each function of the compiler commutes with emptying, as an equation of computations: what it does on
an emptied argument is what it does on the argument, with the result emptied.
-/

namespace DataAgent

namespace Compile

open Sql

variable {α β : Type}

theorem ofExcept_map (f : α → β) (x : Except CompileError α) :
    ofExcept (x.map f) = f <$> ofExcept x := by
  cases x <;> rfl

/-- What a computation gives, changed, and from the same counter to the same. -/
theorem map_run (f : α → β) (x : Compile α) (n : Nat) :
    (f <$> x) n = match x n with
      | .ok a n' => .ok (f a) n'
      | .error e n' => .error e n' := by
  show EStateM.map f x n = _
  unfold EStateM.map
  cases x n <;> rfl

/-! ### Filters -/

@[simp] theorem Context.blank_tag (c : Context) (rule : String) (e : Expr) :
    (c.tag rule e).blank = c.tag rule e.blank := by
  unfold Context.tag
  split <;> rfl

theorem scalar_blank (column : String) (json : Json) :
    scalar column json.blank = (scalar column json).map Value.blank := by
  cases json with
  | num n =>
    cases n with
    | double x => rfl
    | int n =>
      show Except.ok (Value.string "") =
        Except.ok (Value.blank (if _ then .int n else .double (.ofInt n)))
      split <;> rfl
  | _ => rfl

theorem listBlank_eq_map (es : List Expr) : listBlank es = es.map Expr.blank := by
  induction es with
  | nil => rfl
  | cons e es ih => rw [listBlank, ih, List.map_cons]

theorem options_blank (c : Context) (column : String) (values : List Json) :
    options c column (values.map Json.blank) = (options c column values).map listBlank := by
  rw [funext listBlank_eq_map]
  refine mapM_map_comm (fun json => ?_) values
  rw [scalar_blank]
  cases scalar column json with
  | error => rfl
  | ok v => exact congrArg Except.ok (c.blank_tag "bop_val" (.value v)).symm

/-- The conditions that relate rows hold no values. -/
theorem joinCondition_blank (source target : BoundTable) (name : String) (r : Relationship) :
    (joinCondition source target name r).map Expr.blank = joinCondition source target name r := by
  cases h : joinCondition source target name r with
  | error => rfl
  | ok e =>
    rw [joinCondition_ok h, Except.map, Expr.blank_foldl_conj, listBlank_eq_map, List.map_map]
    rfl

/-- What a comparison reaches, with the values in its joins emptied. -/
def Reach.blank (reach : Reach) : Reach := { reach with joins := reach.joins.blank }

theorem Reach.existence_blank (c : Context) (reach : Reach) (comparison : Expr) :
    reach.blank.existence c comparison.blank = (reach.existence c comparison).blank := by
  obtain ⟨tables, joins⟩ := reach
  cases tables with
  | nil => rfl
  | cons first others =>
    simp only [Reach.existence, Reach.blank, Context.blank_tag, Expr.blank, Select.blank,
      Expr.blank_conj]
    rfl

theorem ofExcept_joinCondition_blank (source target : BoundTable) (name : String)
    (r : Relationship) : ofExcept (joinCondition source target name r) =
      Expr.blank <$> ofExcept (joinCondition source target name r) := by
  rw [← ofExcept_map, joinCondition_blank]

theorem followPath_blank (c : Context) : ∀ (path : List String) (table : BoundTable) (reach : Reach),
    followPath c table path reach.blank =
      Prod.map id Reach.blank <$> followPath c table path reach
  | [], _, _ => rfl
  | name :: path, table, reach => by
    simp only [followPath, map_bind]
    refine bind_congr fun r => ?_
    refine bind_congr fun target => ?_
    -- a join compares columns only, so emptying it changes nothing
    conv_lhs => rw [ofExcept_joinCondition_blank, bind_map_left]
    refine bind_congr fun join => ?_
    rw [← followPath_blank c path]
    simp only [Reach.blank, Expr.blank_conj]

/-- Columns hold no values, but what was reached before may. -/
theorem columnAt_blank (c : Context) (table : BoundTable) (column : ColumnPath) (reach : Reach) :
    columnAt c table column reach.blank =
      Prod.map Expr.blank Reach.blank <$> columnAt c table column reach := by
  unfold columnAt
  split
  · rfl
  · simp only [map_bind, followPath_blank, bind_map_left, map_pure]
    refine bind_congr fun ⟨last, reach⟩ => ?_
    simp [Context.blank_tag, BoundTable.column, Expr.blank]

theorem operandAt_blank (c : Context) (table : BoundTable) (column : String) (reach : Reach)
    (operand : Operand) :
    operandAt c table column reach.blank operand.blank =
      Prod.map Expr.blank Reach.blank <$> operandAt c table column reach operand := by
  cases operand with
  | column other =>
    simp only [operandAt, Operand.blank, map_bind, columnAt_blank, bind_map_left, map_pure]
    refine bind_congr fun found => ?_
    simp
  | scalar json =>
    simp only [operandAt, Operand.blank, map_bind, scalar_blank, ofExcept_map, bind_map_left, map_pure]
    refine bind_congr fun v => ?_
    simp [Expr.blank]

theorem disjunction_blank (es : List Expr) :
    disjunction (listBlank es) = (disjunction es).blank := by
  cases es with
  | nil => rfl
  | cons e es => exact (Expr.blank_foldl_or es e).symm

/-- The first column of a comparison, for which nothing was reached before. -/
theorem columnAt_start (c : Context) (table : BoundTable) (column : ColumnPath) :
    columnAt c table column {} = Prod.map Expr.blank Reach.blank <$> columnAt c table column {} :=
  columnAt_blank c table column {}

mutual

theorem filterCondition_blank (c : Context) (table : BoundTable) : ∀ filter : Filter,
    filterCondition c table filter.blank = Expr.blank <$> filterCondition c table filter
  | .and filters => by
    simp only [filterCondition, Filter.blank, filterConditions_blank c table filters, bind_map_left,
      map_bind, map_pure, Expr.blank_foldl_conj, Expr.blank_always]
  | .or filters => by
    simp only [filterCondition, Filter.blank, filterConditions_blank c table filters, bind_map_left,
      map_bind, map_pure, disjunction_blank]
  | .not filter => by
    simp only [filterCondition, Filter.blank, filterCondition_blank c table filter, bind_map_left,
      map_bind, map_pure, Expr.blank]
  | .unary operator column => by
    simp only [filterCondition, Filter.blank, map_bind, map_pure]
    refine bind_congr fun _ => ?_
    conv_lhs => rw [columnAt_start, bind_map_left]
    refine bind_congr fun ⟨e, reach⟩ => ?_
    rw [← Reach.existence_blank]
    rfl
  | .binary operator column operand => by
    simp only [filterCondition, Filter.blank, map_bind, map_pure]
    refine bind_congr fun op => ?_
    conv_lhs => rw [columnAt_start, bind_map_left]
    refine bind_congr fun ⟨left, reach⟩ => ?_
    simp only [Prod.map, operandAt_blank, bind_map_left]
    refine bind_congr fun ⟨right, reach⟩ => ?_
    rw [← Reach.existence_blank]
    rfl
  | .list operator column values => by
    simp only [filterCondition, Filter.blank, map_bind, map_pure, options_blank, ofExcept_map,
      bind_map_left]
    refine bind_congr fun _ => ?_
    conv_lhs => rw [columnAt_start, bind_map_left]
    refine bind_congr fun ⟨e, reach⟩ => ?_
    refine bind_congr fun items => ?_
    rw [← Reach.existence_blank]
    cases items <;> rfl

theorem filterConditions_blank (c : Context) (table : BoundTable) : ∀ filters : List Filter,
    filterConditions c table (Filter.listBlank filters) =
      listBlank <$> filterConditions c table filters
  | [] => rfl
  | filter :: filters => by
    simp only [filterConditions, Filter.listBlank, filterCondition_blank c table filter,
      filterConditions_blank c table filters, bind_map_left, map_bind, map_pure, listBlank]

end

/-! ### Queries -/

theorem rowCondition_blank (c : Context) (table : BoundTable) (link : Option Link)
    (filter : Option Filter) :
    rowCondition c table link (filter.map Filter.blank) =
      Expr.blank <$> rowCondition c table link filter := by
  have hlink (l : Link) := ofExcept_joinCondition_blank l.parent table l.name l.relationship
  cases filter <;> cases link with
  | none => simp [rowCondition, filterCondition_blank, Expr.blank_conj, Expr.blank_always]
  | some l =>
    simp only [rowCondition, Option.map, filterCondition_blank, bind_map_left, map_bind, map_pure,
      pure_bind, Expr.blank_conj]
    conv_lhs => rw [hlink l]
    simp [Expr.blank_always]

/-- The page with the strings and numbers of its filter emptied. -/
def Page.blank (page : Page) : Page := { page with filter := page.filter.map Filter.blank }

theorem whereCondition_blank (c : Context) (e : Expr) :
    whereCondition c e.blank = (whereCondition c e).blank := by
  unfold whereCondition
  rw [Expr.isTrue_blank]
  split <;> simp

theorem orderBlank_orderColumns (table : BoundTable) (orderBy : List OrderBy) :
    orderBlank (orderColumns table orderBy) = orderColumns table orderBy := by
  induction orderBy with
  | nil => rfl
  | cons o orderBy ih =>
    show (table.column o.column, o.direction) :: orderBlank (orderColumns table orderBy) = _
    rw [ih]
    rfl

theorem pageRows_blank (c : Context) (table : BoundTable) (page : Page) (condition : Expr) :
    pageRows c table page.blank condition.blank = (pageRows c table page condition).blank := by
  simp only [pageRows, Page.blank, Select.blank, whereCondition_blank, orderBlank_orderColumns]
  rfl

theorem rowsArray_blank (c : Context) (name : String) (link : Option Link) (page : Page)
    {object object' : BoundTable → Compile Expr} (h : ∀ t, object' t = Expr.blank <$> object t) :
    rowsArray c name link page.blank object' = Expr.blank <$> rowsArray c name link page object := by
  unfold rowsArray
  simp only [map_bind]
  refine bind_congr fun table => ?_
  rw [show page.blank.filter = page.filter.map Filter.blank from rfl, rowCondition_blank, bind_map_left]
  refine bind_congr fun condition => ?_
  rw [show page.blank.orderBy = page.orderBy from rfl]
  by_cases horder : page.orderBy.isEmpty = true
  · simp only [if_pos horder, h, bind_map_left, map_bind, map_pure, pure_bind]
    refine bind_congr fun e => ?_
    refine bind_congr fun rows => ?_
    rw [Context.blank_tag, whereCondition_blank]
    rfl
  · simp only [if_neg horder, h, bind_map_left, map_bind, map_pure, pure_bind]
    refine bind_congr fun ordered => ?_
    refine bind_congr fun e => ?_
    refine bind_congr fun rows => ?_
    rw [Context.blank_tag, pageRows_blank]
    rfl

theorem entryBlank_eq_map (es : List (String × Expr)) :
    entryBlank es = es.map fun e => (e.1, e.2.blank) := by
  induction es with
  | nil => rfl
  | cons e es ih => rw [entryBlank, ih, List.map_cons]

/-- Aggregates are over columns, so they hold no values. -/
theorem aggregates_blank (table : BoundTable) (aggregates : List (String × Aggregate)) :
    (aggregates.mapM fun ((key, a) : String × Aggregate) =>
      (do return (key, ← aggregate table a) : Except CompileError (String × Expr))).map entryBlank =
    aggregates.mapM fun ((key, a) : String × Aggregate) =>
      (do return (key, ← aggregate table a) : Except CompileError (String × Expr)) := by
  rw [funext entryBlank_eq_map, ← mapM_map_comm (k := id), List.map_id]
  rintro ⟨key, a⟩
  show (do return (key, ← aggregate table a)) = Except.map _ (do return (key, ← aggregate table a))
  cases h : aggregate table a with
  | error => rfl
  | ok e =>
    have hblank : e.blank = e := by cases aggregate_ok h <;> rfl
    exact congrArg (fun e => Except.ok (key, e)) hblank.symm

theorem aggregatesSelect_blank (c : Context) (name : String) (link : Option Link) (page : Page)
    (aggregates : List (String × Aggregate)) :
    aggregatesSelect c name link page.blank aggregates =
      Select.blank <$> aggregatesSelect c name link page aggregates := by
  unfold aggregatesSelect
  simp only [map_bind]
  refine bind_congr fun table => ?_
  rw [show page.blank.filter = page.filter.map Filter.blank from rfl, rowCondition_blank, bind_map_left]
  refine bind_congr fun condition => ?_
  refine bind_congr fun rows => ?_
  conv_lhs => rw [← aggregates_blank, ofExcept_map, bind_map_left]
  refine bind_congr fun entries => ?_
  rw [map_pure, pageRows_blank]
  simp [Select.ofItems, Select.blank, SelectList.blank, entryBlank, Expr.blank, sourceBlank, Source.blank,
    orderBlank, Expr.blank_always]

theorem relatedObject_blank (c : Context) (link : Link) (filter : Option Filter)
    {object object' : BoundTable → Compile Expr} (h : ∀ t, object' t = Expr.blank <$> object t) :
    relatedObject c link (filter.map Filter.blank) object' =
      Expr.blank <$> relatedObject c link filter object := by
  unfold relatedObject
  simp only [map_bind]
  refine bind_congr fun table => ?_
  rw [rowCondition_blank, bind_map_left]
  refine bind_congr fun condition => ?_
  rw [h, bind_map_left]
  refine bind_congr fun row => ?_
  rw [map_pure, Context.blank_tag, whereCondition_blank]
  rfl

mutual

theorem arrayQuery_blank (c : Context) : ∀ (q : Query) (depth : Nat) (name : String)
    (link : Option Link),
    arrayQuery c depth name link q.blank = Expr.blank <$> arrayQuery c depth name link q
  | ⟨fields, none, filter, orderBy, limit, offset⟩, depth, name, link => by
    let page : Page := { filter, orderBy := orderBy.getD [], limit := { limit, offset } }
    have hrows := rowsArray_blank c name link page fun t => fieldsObject_blank c fields depth t
    simp only [page, Page.blank] at hrows
    simpa only [arrayQuery, Query.blank] using hrows
  | ⟨fields, some aggregates, filter, orderBy, limit, offset⟩, depth, name, link => by
    let page : Page := { filter, orderBy := orderBy.getD [], limit := { limit, offset } }
    have hfirst := aggregatesSelect_blank c name link page aggregates
    have hrows := rowsArray_blank c name link page fun t => fieldsObject_blank c fields depth t
    have hnone : (fieldsBlank fields).isNone = fields.isNone := by cases fields <;> rfl
    simp only [page, Page.blank] at hfirst hrows
    simp only [arrayQuery, Query.blank, hfirst, hrows, hnone, map_bind, bind_map_left]
    refine bind_congr fun s => ?_
    split
    · rfl
    · simp [Expr.blank, entryBlank, listBlank, Expr.asJson]

theorem objectQuery_blank (c : Context) : ∀ (q : Query) (depth : Nat) (link : Link),
    objectQuery c depth link q.blank = Expr.blank <$> objectQuery c depth link q
  | ⟨fields, aggregates, filter, _, _, _⟩, depth, link => by
    have hobject := relatedObject_blank c link filter fun t => fieldsObject_blank c fields depth t
    simp only [objectQuery, Query.blank, hobject]
    split
    · rfl
    · simp

theorem fieldsObject_blank (c : Context) : ∀ (fields : Option (List (String × Field))) (depth : Nat)
    (table : BoundTable),
    fieldsObject c depth table (fieldsBlank fields) = Expr.blank <$> fieldsObject c depth table fields
  | none, _, _ => by simp [fieldsBlank, fieldsObject, Expr.blank, entryBlank]
  | some fields, depth, table => by
    simp [fieldsBlank, fieldsObject, fieldEntries_blank c fields, Expr.blank]

theorem fieldEntries_blank (c : Context) : ∀ (fields : List (String × Field)) (depth : Nat)
    (table : BoundTable),
    fieldEntries c depth table (membersBlank fields) =
      entryBlank <$> fieldEntries c depth table fields
  | [], _, _ => rfl
  | (key, field) :: fields, depth, table => by
    simp [membersBlank, fieldEntries, fieldValue_blank c field, fieldEntries_blank c fields, entryBlank]

theorem fieldValue_blank (c : Context) : ∀ (field : Field) (depth : Nat) (table : BoundTable),
    fieldValue c depth table field.blank = Expr.blank <$> fieldValue c depth table field
  | .column _, _, _ => rfl
  | .relationship name q, depth, table => by
    simp only [Field.blank, fieldValue]
    split
    · rfl
    · simp only [map_bind]
      refine bind_congr fun r => ?_
      cases r.kind with
      | object => simp [objectQuery_blank c q, Expr.asJson, Expr.blank, listBlank]
      | array => simp [arrayQuery_blank c q, Expr.asJson, Expr.blank, listBlank]

end

end Compile

/-- A compiled request with its values emptied. -/
def Plan.blank (plan : Plan) : Plan := { plan with select := plan.select.blank }

/-- Emptying the scalars of a request empties them in its plan, and keeps its error. -/
theorem Request.compile_blank (settings : QuerySettings) (r : Request) :
    r.blank.compile settings = (r.compile settings).map Plan.blank := by
  let c : Compile.Context := { relationships := r.relationships, settings }
  have hrun : Compile.arrayQuery c 0 r.table none r.query.blank 0 = _ :=
    (congrFun (Compile.arrayQuery_blank c r.query 0 r.table none) 0).trans (Compile.map_run _ _ _)
  simp only [Request.compile, Request.blank, EStateM.run]
  rw [hrun]
  cases Compile.arrayQuery c 0 r.table none r.query 0 with
  | error e n => rfl
  | ok e n =>
    refine congrArg Except.ok ?_
    simp only [Plan.blank, Sql.Select.ofItems, Sql.Select.blank, Sql.SelectList.blank, Sql.entryBlank,
      Compile.Context.blank_tag]
    rfl

theorem Request.bound_compile {settings : QuerySettings} {r : Request} {plan : Plan}
    (h : r.compile settings = .ok plan) (i : Nat) :
    plan.select.statement.params[i]? = r.bound[i]?.bind Json.param := by
  have hparams : plan.select.statement.params = r.scalars.filterMap Json.param :=
    plan.select.params_pieces.trans (Request.params_select h)
  rw [hparams, getElem?_params, Request.bound]

/-- **The text of a statement does not depend on the data of filters.** Requests that differ only in the
strings and numbers that their filters compare with fail with the same error, or have statements of the
same text and as many parameters, each of which belongs to one of these strings and numbers and is the
same if that is. -/
theorem Request.compile_of_blank_eq (settings : QuerySettings) {r₁ r₂ : Request}
    (h : r₁.blank = r₂.blank) :
    match r₁.compile settings, r₂.compile settings with
    | .error e₁, .error e₂ => e₁ = e₂
    | .ok p₁, .ok p₂ =>
      p₁.select.statement.text = p₂.select.statement.text ∧
      p₁.select.explainStatement.text = p₂.select.explainStatement.text ∧
      p₁.select.statement.params.length = p₂.select.statement.params.length ∧
      (∀ i : Nat, p₁.select.statement.params[i]? = r₁.bound[i]?.bind Json.param ∧
        p₂.select.statement.params[i]? = r₂.bound[i]?.bind Json.param) ∧
      ∀ i : Nat, r₁.bound[i]? = r₂.bound[i]? →
        p₁.select.statement.params[i]? = p₂.select.statement.params[i]?
    | _, _ => False := by
  -- both are the outcome of the emptied request, so they fail together
  have hblank : (r₁.compile settings).map Plan.blank = (r₂.compile settings).map Plan.blank := by
    rw [← Request.compile_blank, ← Request.compile_blank, h]
  cases h₁ : r₁.compile settings with
  | error e₁ =>
    cases h₂ : r₂.compile settings with
    | error e₂ =>
      rw [h₁, h₂] at hblank
      exact Except.error.inj hblank
    | ok p₂ =>
      rw [h₁, h₂] at hblank
      cases hblank
  | ok p₁ =>
    cases h₂ : r₂.compile settings with
    | error e₂ =>
      rw [h₁, h₂] at hblank
      cases hblank
    | ok p₂ =>
      rw [h₁, h₂] at hblank
      have hselect : p₁.select.blank = p₂.select.blank := congrArg Plan.select (Except.ok.inj hblank)
      have hparams₁ := Request.bound_compile h₁
      have hparams₂ := Request.bound_compile h₂
      refine ⟨?_, ?_, ?_, fun i => ⟨hparams₁ i, hparams₂ i⟩, fun i hi => ?_⟩
      · rw [← p₁.select.text_blank, hselect, p₂.select.text_blank]
      · rw [← p₁.select.explain_text_blank, hselect, p₂.select.explain_text_blank]
      · rw [← p₁.select.length_params_blank, hselect, p₂.select.length_params_blank]
      · rw [hparams₁ i, hparams₂ i, hi]

/-- A number in place of a name changes neither the text nor any other parameter. -/
theorem Music.text_picks :
    (Music.picks (.str "Alice")).blank = (Music.picks (.num (.int 7))).blank ∧
      ∃ p₁ p₂, (Music.picks (.str "Alice")).compile {} = .ok p₁ ∧
        (Music.picks (.num (.int 7))).compile {} = .ok p₂ ∧
        p₁.select.statement.text = p₂.select.statement.text ∧
        p₁.select.statement.params[2]? = some (.string "Alice") ∧
        p₂.select.statement.params[2]? = some (.int 7) ∧
        p₁.select.statement.params[5]? = p₂.select.statement.params[5]? := by
  have hblank : (Music.picks (.str "Alice")).blank = (Music.picks (.num (.int 7))).blank := rfl
  obtain ⟨htext, -, -, hparams, hsame⟩ := Request.compile_of_blank_eq {} hblank
  exact ⟨hblank, _, _, rfl, rfl, htext, (hparams 2).1, (hparams 2).2, hsame 5 rfl⟩

end DataAgent
