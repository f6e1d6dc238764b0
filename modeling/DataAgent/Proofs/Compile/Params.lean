import DataAgent.Proofs.Compile.Runs
import DataAgent.Proofs.Request.Meaning
import DataAgent.Proofs.Request.Scalars
import DataAgent.Proofs.Sql.Params

/-!
# Proofs — Compile — Params

The parameters of a compiled request are the strings and numbers its filters compare with, in the
order of `Request.scalars` (`Request.params_compile`). The compiler meets the filter of a query
before its fields, but the statement has the objects of the rows first; and it compiles the filter
twice where a query has aggregates and rows.
-/

namespace DataAgent

namespace Compile

open Sql

/-! ### Filters -/

@[simp] theorem Context.params_tag (c : Context) (rule : String) (e : Expr) :
    (c.tag rule e).params = e.params := by
  unfold Context.tag
  split <;> simp [Expr.params]

@[simp] theorem params_whereCondition (c : Context) (e : Expr) :
    (whereCondition c e).params = e.params := by
  unfold whereCondition
  split <;> simp

@[simp] theorem BoundTable.params_column (t : BoundTable) (name : String) :
    (t.column name).params = [] := rfl

theorem listParams_eq_nil {es : List Expr} (h : ∀ e ∈ es, e.params = []) : listParams es = [] := by
  induction es with
  | nil => rfl
  | cons e es ih => rw [listParams, h e (by simp), ih fun e he => h e (by simp [he])]; rfl

/-- A scalar that compiles is bound to its parameter, or to none. -/
theorem params_scalar {column : String} {json : Json} {v : Value} (h : scalar column json = .ok v) :
    v.params = json.param.toList := by
  cases json with
  | null | bool _ | str _ =>
    cases h
    rfl
  | num n =>
    cases n with
    | double x =>
      cases h
      rfl
    | int n =>
      have hv := Except.ok.inj h
      by_cases hn : -Int.pow 2 63 ≤ n ∧ n < Int.pow 2 63
      · have hfits : fitsWord n = true := by simpa [fitsWord] using hn
        rw [if_pos hn] at hv
        rw [← hv, Json.param, if_pos hfits]
        rfl
      · have hfits : fitsWord n = false := by simpa [fitsWord] using hn
        rw [if_neg hn] at hv
        rw [← hv, Json.param, if_neg (by simp [hfits])]
        rfl
  | arr _ | obj _ => cases h

theorem params_options {c : Context} {column : String} {values : List Json} {items : List Expr}
    (h : options c column values = .ok items) : listParams items = values.filterMap Json.param := by
  replace h := options_ok h
  induction h with
  | nil => rfl
  | @cons json _ _ _ hitem _ ih =>
    obtain ⟨v, hv, rfl⟩ := hitem
    rw [listParams, Context.params_tag, Expr.params, params_scalar hv, ih]
    cases hparam : json.param <;> simp [hparam]

/-- The condition that relates two rows compares columns only. -/
theorem params_joinCondition {source target : BoundTable} {name : String} {r : Relationship}
    {e : Expr} (h : joinCondition source target name r = .ok e) : e.params = [] := by
  rw [joinCondition_ok h, Expr.params_foldl_conj]
  refine listParams_eq_nil fun e he => ?_
  obtain ⟨pair, -, rfl⟩ := List.mem_map.1 he
  rfl

theorem Walk.params_joins {c : Context} {table last : BoundTable} {path : List String} {n : Nat}
    {tables : List BoundTable} {joins : List Expr} (h : Walk c table path n tables joins last) :
    ∀ e ∈ joins, e.params = [] := by
  induction h with
  | nil => simp
  | cons _ hj _ ih =>
    intro e he
    rcases List.mem_cons.1 he with rfl | he
    · exact params_joinCondition hj
    · exact ih e he

theorem Comparing.params {c : Context} {l r : BoundTable} {filter : Filter}
    {left right : List String} {e : Expr} (h : Comparing c l r filter left right e) :
    e.params = filter.scalars.filterMap Json.param := by
  cases h with
  | isNull column => simp [Expr.params, Filter.scalars]
  | @value operator column json op v _ hv =>
    cases hparam : json.param <;>
      simp [Expr.params, Filter.scalars, Operand.scalars, params_scalar hv, hparam]
  | column _ => simp [Expr.params, Filter.scalars, Operand.scalars]
  | @list column values items hs =>
    rw [Filter.scalars, ← params_options hs]
    split
    · rename_i hempty
      rw [List.isEmpty_iff.1 hempty]
      rfl
    · simp [Expr.params]

/-- The rows a comparison reaches are related by columns, so only the comparison binds values. -/
theorem Reach.params_existence (c : Context) {reach : Reach} {comparison : Expr}
    (hj : reach.joins.params = []) : (reach.existence c comparison).params = comparison.params := by
  unfold Reach.existence
  split
  · rfl
  · simp [Expr.params, Select.params, SelectList.params, sourceParams, BoundTable.source,
      Source.params, orderParams, Expr.params_conj, hj]

theorem ComparisonRun.params {c : Context} {table : BoundTable} {filter : Filter} {n n' : Nat}
    {e : Expr} (h : ComparisonRun c table filter n n' e) :
    e.params = filter.scalars.filterMap Json.param := by
  have hjoins : (((h.leftJoins ++ h.rightJoins).foldl .conj .always) : Expr).params = [] := by
    rw [Expr.params_foldl_conj]
    refine listParams_eq_nil fun e he => ?_
    rcases List.mem_append.1 he with he | he
    · exact h.leftWalk.params_joins e he
    · exact h.rightWalk.params_joins e he
  rw [h.result, Reach.params_existence c hjoins]
  exact h.comparing.params

theorem params_disjunction (es : List Expr) : (disjunction es).params = listParams es := by
  cases es with
  | nil => rfl
  | cons e es => exact Expr.params_foldl_or es e

mutual

theorem filterCondition_params {c : Context} {table : BoundTable} :
    ∀ (filter : Filter) {n n' : Nat} {e : Expr},
      filterCondition c table filter n = .ok e n' →
        e.params = filter.scalars.filterMap Json.param
  | .and filters, _, _, _, h => by
    obtain ⟨es, hes, rfl⟩ := filterCondition_and_ok h
    rw [Expr.params_foldl_conj, Filter.scalars]
    exact filterConditions_params filters hes
  | .or filters, _, _, _, h => by
    obtain ⟨es, hes, rfl⟩ := filterCondition_or_ok h
    rw [params_disjunction, Filter.scalars]
    exact filterConditions_params filters hes
  | .not filter, _, _, _, h => by
    obtain ⟨e, he, rfl⟩ := filterCondition_not_ok h
    rw [Expr.params, Filter.scalars]
    exact filterCondition_params filter he
  | .unary _ _, _, _, _, h => by
    obtain ⟨run⟩ := filterCondition_unary_ok h
    exact run.params
  | .binary _ _ _, _, _, _, h => by
    obtain ⟨run⟩ := filterCondition_binary_ok h
    exact run.params
  | .list _ _ _, _, _, _, h => by
    obtain ⟨run⟩ := filterCondition_list_ok h
    exact run.params

theorem filterConditions_params {c : Context} {table : BoundTable} :
    ∀ (filters : List Filter) {n n' : Nat} {es : List Expr},
      filterConditions c table filters n = .ok es n' →
        listParams es = (Filter.listScalars filters).filterMap Json.param
  | [], _, _, _, h => by
    obtain ⟨rfl, rfl⟩ := filterConditions_nil_ok h
    rfl
  | filter :: filters, _, _, _, h => by
    obtain ⟨e, es, m, he, hes, rfl⟩ := filterConditions_cons_ok h
    rw [listParams, Filter.listScalars, List.filterMap_append, filterCondition_params filter he,
      filterConditions_params filters hes]

end

/-! ### Queries -/

/-- The scalars of the filter of a query, if it has one. -/
abbrev ownScalars (filter : Option Filter) : List Json := filter.elim [] Filter.scalars

theorem rowCondition_params {c : Context} {table : BoundTable} {link : Option Link}
    {filter : Option Filter} {n n' : Nat} {e : Expr}
    (h : rowCondition c table link filter n = .ok e n') :
    e.params = (ownScalars filter).filterMap Json.param := by
  obtain ⟨own, join, hown, hjoin, rfl⟩ := rowCondition_ok h
  have hj : join.params = [] := by
    cases link with
    | none =>
      cases hjoin
      rfl
    | some l => exact params_joinCondition hjoin
  rw [Expr.params_conj, hj, List.append_nil]
  cases filter with
  | none =>
    obtain ⟨rfl, rfl⟩ := pure_ok_iff.1 hown
    rfl
  | some f => exact filterCondition_params f hown

@[simp] theorem params_orderColumns (table : BoundTable) (orderBy : List OrderBy) :
    orderParams (orderColumns table orderBy) = [] := by
  induction orderBy with
  | nil => rfl
  | cons o orderBy ih => exact ih

@[simp] theorem params_pageRows (c : Context) (table : BoundTable) (page : Page) (condition : Expr) :
    (pageRows c table page condition).params = condition.params := by
  simp [pageRows, Select.params, SelectList.params, sourceParams, BoundTable.source, Source.params]

@[simp] theorem params_arrayOf (objects : Select) (rows : TableAlias) :
    (arrayOf objects rows).params = objects.params := by
  simp [arrayOf, Select.ofItems, Select.params, SelectList.params, entryParams, Expr.params,
    listParams, Expr.asJson, sourceParams, Source.params, Expr.params_always, orderParams]

@[simp] theorem params_objectOf (c : Context) (table : BoundTable) (condition object : Expr) :
    (objectOf c table condition object).params = object.params ++ condition.params := by
  simp [objectOf, Select.ofItems, Select.params, SelectList.params, entryParams, Expr.params,
    listParams, sourceParams, BoundTable.source, Source.params, orderParams]

@[simp] theorem params_asJson (e : Expr) : e.asJson.params = e.params := by
  simp [Expr.asJson, Expr.params, listParams]

/-- Whichever plan is taken, the objects of the rows stand before the condition on them. -/
theorem ObjectsRun.params {c : Context} {name : String} {page : Page}
    {object : BoundTable → Compile Expr} {n m k : Nat} {condition : Expr} {objects : Select}
    {ps : List Param} (h : ObjectsRun c name page object n condition m objects k)
    (hobject : ∀ {t n n' e}, object t n = .ok e n' → e.params = ps) :
    objects.params = ps ++ condition.params := by
  cases h with
  | direct _ run =>
    simp [directObjects, Select.ofItems, Select.params, SelectList.params, entryParams, sourceParams,
      BoundTable.source, Source.params, orderParams, hobject run]
  | ordered _ run =>
    simp [orderedObjects, Select.ofItems, Select.params, SelectList.params, entryParams, sourceParams,
      Source.params, orderParams, Expr.params_always, hobject run]

theorem rowsArray_params {c : Context} {name : String} {link : Option Link} {page : Page}
    {object : BoundTable → Compile Expr} {n n' : Nat} {e : Expr} {ps : List Param}
    (hobject : ∀ {t n n' e}, object t n = .ok e n' → e.params = ps)
    (h : rowsArray c name link page object n = .ok e n') :
    e.params = ps ++ (ownScalars page.filter).filterMap Json.param := by
  obtain ⟨condition, m, objects, k, hc, hobjects, rfl, rfl⟩ := rowsArray_ok h
  rw [Context.params_tag, Expr.params, params_arrayOf, hobjects.params hobject, rowCondition_params hc]

theorem AggregateRun.params {table : BoundTable} {a : Aggregate} {e : Expr}
    (h : AggregateRun table a e) : e.params = [] := by
  cases h <;> rfl

theorem aggregatesSelect_params {c : Context} {name : String} {link : Option Link} {page : Page}
    {aggregates : List (String × Aggregate)} {n n' : Nat} {s : Select}
    (h : aggregatesSelect c name link page aggregates n = .ok s n') :
    s.params = (ownScalars page.filter).filterMap Json.param := by
  obtain ⟨condition, m, entries, hc, hentries, rfl, rfl⟩ := aggregatesSelect_ok h
  have hnone : entryParams entries = [] := by
    clear h
    induction hentries with
    | nil => rfl
    | cons ha _ ih => rw [entryParams, ha.2.params, ih]; rfl
  simp [summaryOf, Select.ofItems, Select.params, SelectList.params, entryParams, Expr.params, hnone,
    sourceParams, Source.params, rowCondition_params hc, Expr.params_always, orderParams]

theorem relatedObject_params {c : Context} {link : Link} {filter : Option Filter}
    {object : BoundTable → Compile Expr} {n n' : Nat} {e : Expr} {ps : List Param}
    (hobject : ∀ {t n n' e}, object t n = .ok e n' → e.params = ps)
    (h : relatedObject c link filter object n = .ok e n') :
    e.params = ps ++ (ownScalars filter).filterMap Json.param := by
  obtain ⟨condition, m, o, hc, ho, rfl⟩ := relatedObject_ok h
  rw [Context.params_tag, Expr.params, params_objectOf, hobject ho, rowCondition_params hc]

mutual

theorem arrayQuery_params {c : Context} :
    ∀ (q : Query) {depth : Nat} {name : String} {link : Option Link} {n n' : Nat} {e : Expr},
      arrayQuery c depth name link q n = .ok e n' → e.params = q.scalars.filterMap Json.param
  | ⟨fields, none, filter, _, _, _⟩, _, _, _, _, _, _, h => by
    have hrows := rowsArray_params (fieldsObject_params fields) (arrayQuery_rows_ok rfl h)
    simpa [Query.scalars, pageOf] using hrows
  | ⟨fields, some aggregates, filter, _, _, _⟩, _, _, _, _, _, _, h => by
    obtain ⟨s, m, hs, ⟨rfl, rfl, rfl⟩ | ⟨rows, hfields, hrows, rfl⟩⟩ := arrayQuery_aggregates_ok rfl h
    · simpa [Query.scalars, Expr.params, entryParams, pageOf] using aggregatesSelect_params hs
    · have hfirst := aggregatesSelect_params hs
      have hthen := rowsArray_params (fieldsObject_params fields) hrows
      simp [Query.scalars, Expr.params, entryParams, hfirst, hthen, pageOf, hfields]

theorem objectQuery_params {c : Context} :
    ∀ (q : Query) {depth : Nat} {link : Link} {n n' : Nat} {e : Expr},
      objectQuery c depth link q n = .ok e n' → e.params = q.scalars.filterMap Json.param
  | ⟨fields, aggregates, filter, _, _, _⟩, _, _, _, _, _, h => by
    obtain ⟨rfl, hrun⟩ := objectQuery_ok h
    have hobject := relatedObject_params (fieldsObject_params fields) hrun
    simpa [Query.scalars] using hobject

theorem fieldsObject_params {c : Context} {depth : Nat} :
    ∀ (fields : Option (List (String × Field))) {table : BoundTable} {n n' : Nat} {e : Expr},
      fieldsObject c depth table fields n = .ok e n' →
        e.params = (fieldsScalars fields).filterMap Json.param
  | none, _, _, _, _, h => by
    obtain ⟨rfl, rfl⟩ := fieldsObject_none_ok h
    simp [Expr.params, entryParams, fieldsScalars]
  | some fields, _, _, _, _, h => by
    obtain ⟨entries, hentries, rfl⟩ := fieldsObject_some_ok h
    simpa [Expr.params, fieldsScalars] using fieldEntries_params fields hentries

theorem fieldEntries_params {c : Context} {depth : Nat} :
    ∀ (fields : List (String × Field)) {table : BoundTable} {n n' : Nat}
      {entries : List (String × Expr)},
      fieldEntries c depth table fields n = .ok entries n' →
        entryParams entries = (entryScalars fields).filterMap Json.param
  | [], _, _, _, _, h => by
    obtain ⟨rfl, rfl⟩ := fieldEntries_nil_ok h
    rfl
  | (_, field) :: fields, _, _, _, _, h => by
    obtain ⟨e, m, rest, he, hrest, rfl⟩ := fieldEntries_cons_ok h
    rw [entryParams, entryScalars, List.filterMap_append, fieldValue_params field he,
      fieldEntries_params fields hrest]

theorem fieldValue_params {c : Context} {depth : Nat} :
    ∀ (field : Field) {table : BoundTable} {n n' : Nat} {e : Expr},
      fieldValue c depth table field n = .ok e n' → e.params = field.scalars.filterMap Json.param
  | .column _, _, _, _, _, h => by
    obtain ⟨rfl, rfl⟩ := fieldValue_column_ok h
    rfl
  | .relationship _ q, _, _, _, _, h => by
    obtain ⟨r, e, -, rfl, ⟨-, he⟩ | ⟨-, he⟩⟩ := fieldValue_relationship_ok h
    · simpa [Field.scalars] using objectQuery_params q he
    · simpa [Field.scalars] using arrayQuery_params q he

end

end Compile

/-- The parameters of a compiled select, clause by clause, are the bound scalars of the request. -/
theorem Request.params_select {settings : QuerySettings} {r : Request} {plan : Plan}
    (h : r.compile settings = .ok plan) : plan.select.params = r.scalars.filterMap Json.param := by
  obtain ⟨e, n, he, hs, -⟩ := Request.compile_ok h
  rw [hs, Request.scalars, ← Compile.arrayQuery_params r.query he]
  simp [Sql.Select.ofItems, Sql.Select.params, Sql.SelectList.params, Sql.entryParams,
    Sql.sourceParams, Sql.orderParams, Sql.Expr.params_always]

/-- **The parameters of a statement are the scalars of its request**, in the order in which the
statement mentions them. -/
theorem Request.params_compile {settings : QuerySettings} {r : Request} {plan : Plan}
    (h : r.compile settings = .ok plan) :
    plan.select.statement.params = r.scalars.filterMap Json.param :=
  plan.select.params_pieces.trans (Request.params_select h)

/-- Artists of a name, with certain albums of each, counted and listed, and for each album its artist
unless that has the other name. -/
def Music.picks (other : Json) : Request :=
  let isCalled (name : Json) : Filter := .binary "equal" { name := "Name" } (.scalar name)
  let albums : Filter :=
    .or [.list "in" { name := "AlbumId" } [.num (.int 1), .null, .num (.int (Int.pow 2 64 - 1))],
      .binary "less_than" { name := "Title" } (.column { path := ["Artist"], name := "Name" }),
      .binary "equal" { name := "Title" } (.scalar (.bool true))]
  { table := "Artist"
    relationships := Music.relationships
    query :=
      { fields := some
          [("albums", .relationship "Albums"
            { fields := some [("artist", .relationship "Artist"
                { filter := some (.not (isCalled other)) })]
              aggregates := some [("albums", .rowCount)]
              filter := some albums })]
        filter := some (isCalled (.str "Accept")) } }

/-- The filter on albums is bound twice, before and after the name inside it, and the filter on artists
last; the number beyond sixty-four bits is a double, and null and true are not bound. -/
theorem Music.params_picks :
    ∃ plan, (Music.picks (.str "Alice")).compile {} = .ok plan ∧
      plan.select.statement.params =
        [.int 1, .double (.ofInt (Int.pow 2 64 - 1)), .string "Alice", .int 1,
          .double (.ofInt (Int.pow 2 64 - 1)), .string "Accept"] := by
  have hcompile : (Music.picks (.str "Alice")).compile {} = .ok _ := rfl
  exact ⟨_, hcompile, (Request.params_compile hcompile).trans rfl⟩

end DataAgent
