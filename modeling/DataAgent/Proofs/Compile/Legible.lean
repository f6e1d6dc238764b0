import DataAgent.Proofs.Compile.Params
import DataAgent.Proofs.Sql.RoundTrip

/-!
# Proofs — Compile — Legible

The text of a compiled request is read back as the statement that was compiled
(`Request.parse_compile`), because compiled statements are legible.

What a filter compares is a column, or a constant, so no comparison begins with a negation however
filters are nested (`Comparing.legible`). Tables are joined only where the paths of a filter lead to
one, every select yields an item, a row or all columns, and the tags are names of rules.
-/

namespace DataAgent

namespace Compile

open Sql

variable {c : Context} {n n' : Nat} {e : Expr}

/-! ### Filters -/

/-- A mark stays a comment if its rule does not end one. -/
theorem Context.legible_tag {rule : String} (hrule : ¬ EndsComment rule.toList) (h : e.Legible) :
    (c.tag rule e).Legible := by
  unfold Context.tag
  split
  · exact ⟨hrule, h⟩
  · exact h

theorem Context.negates_tag (c : Context) (rule : String) (e : Expr) :
    (c.tag rule e).negates = e.negates := by
  unfold Context.tag
  split <;> rfl

theorem legible_whereCondition (h : e.Legible) : (whereCondition c e).Legible := by
  unfold whereCondition
  split
  · exact h
  · exact Context.legible_tag (by decide) h

theorem legible_asJson (h : e.Legible) : e.asJson.Legible := ⟨h, trivial⟩

theorem joinCondition_legible {source target : BoundTable} {name : String} {r : Relationship}
    (h : joinCondition source target name r = .ok e) : e.Legible := by
  rw [joinCondition_ok h]
  refine Expr.legible_foldl_conj _ trivial (listLegible_iff.2 fun e he => ?_)
  obtain ⟨pair, -, rfl⟩ := List.mem_map.1 he
  exact ⟨rfl, trivial, trivial⟩

theorem Walk.legible {table last : BoundTable} {path : List String} {tables : List BoundTable}
    {joins : List Expr} (h : Walk c table path n tables joins last) : ListLegible joins := by
  induction h with
  | nil => trivial
  | cons _ hj _ ih => exact ⟨joinCondition_legible hj, ih⟩

/-- A filter compares a column, whatever it compares it with. -/
theorem Comparing.legible {l r : BoundTable} {filter : Filter} {left right : List String}
    (h : Comparing c l r filter left right e) : e.Legible := by
  have hcolumn (rule : String) (hrule : ¬ EndsComment rule.toList) (t : BoundTable) (name : String) :
      (c.tag rule (t.column name)).negates = false ∧ (c.tag rule (t.column name)).Legible :=
    ⟨c.negates_tag rule _, Context.legible_tag hrule trivial⟩
  cases h with
  | isNull column => exact hcolumn "bop_col" (by decide) l column.name
  | value _ _ =>
    obtain ⟨hnegates, hlegible⟩ := hcolumn "bop_col" (by decide) l _
    exact ⟨hnegates, hlegible, Context.legible_tag (by decide) trivial⟩
  | column _ =>
    obtain ⟨hnegates, hlegible⟩ := hcolumn "bop_col" (by decide) l _
    exact ⟨hnegates, hlegible, Context.legible_tag (by decide) (hcolumn _ (by decide) r _).2⟩
  | @list _ _ items hs =>
    obtain ⟨hnegates, hlegible⟩ := hcolumn "bop_col" (by decide) l _
    split
    · trivial
    · refine ⟨hnegates, hlegible, ?_⟩
      replace hs := options_ok hs
      clear *- hs
      induction hs with
      | nil => trivial
      | cons hitem _ ih =>
        obtain ⟨v, -, rfl⟩ := hitem
        exact ⟨Context.legible_tag (by decide) trivial, ih⟩

theorem ComparisonRun.legible {table : BoundTable} {filter : Filter}
    (h : ComparisonRun c table filter n n' e) : e.Legible := by
  rw [h.result]
  unfold Reach.existence
  -- tables are joined only in the second case, and there one is the source
  split
  · exact h.comparing.legible
  · have hjoins : ListLegible (h.leftJoins ++ h.rightJoins) := by
      refine listLegible_iff.2 fun e he => ?_
      rcases List.mem_append.1 he with hl | hr
      · exact listLegible_iff.1 h.leftWalk.legible e hl
      · exact listLegible_iff.1 h.rightWalk.legible e hr
    have hfold := Expr.legible_foldl_conj (e := .always) _ trivial hjoins
    refine Context.legible_tag (by decide) ⟨trivial, trivial, ?_, trivial⟩
    exact Expr.legible_conj hfold h.comparing.legible

theorem legible_disjunction {es : List Expr} (h : ListLegible es) : (disjunction es).Legible := by
  cases es with
  | nil => trivial
  | cons e es => exact Expr.legible_foldl_or es h.1 h.2

mutual

theorem filterCondition_legible {table : BoundTable} : ∀ (filter : Filter) {n n' : Nat} {e : Expr},
    filterCondition c table filter n = .ok e n' → e.Legible
  | .and filters, _, _, _, h => by
    obtain ⟨es, hes, rfl⟩ := filterCondition_and_ok h
    exact Expr.legible_foldl_conj es trivial (filterConditions_legible filters hes)
  | .or filters, _, _, _, h => by
    obtain ⟨es, hes, rfl⟩ := filterCondition_or_ok h
    exact legible_disjunction (filterConditions_legible filters hes)
  | .not filter, _, _, _, h => by
    obtain ⟨e, he, rfl⟩ := filterCondition_not_ok h
    have hlegible : e.Legible := filterCondition_legible filter he
    exact hlegible
  | .unary _ _, _, _, _, h => by
    obtain ⟨run⟩ := filterCondition_unary_ok h
    exact run.legible
  | .binary _ _ _, _, _, _, h => by
    obtain ⟨run⟩ := filterCondition_binary_ok h
    exact run.legible
  | .list _ _ _, _, _, _, h => by
    obtain ⟨run⟩ := filterCondition_list_ok h
    exact run.legible

theorem filterConditions_legible {table : BoundTable} :
    ∀ (filters : List Filter) {n n' : Nat} {es : List Expr},
      filterConditions c table filters n = .ok es n' → ListLegible es
  | [], _, _, _, h => by
    obtain ⟨rfl, rfl⟩ := filterConditions_nil_ok h
    trivial
  | filter :: filters, _, _, _, h => by
    obtain ⟨e, es, m, he, hes, rfl⟩ := filterConditions_cons_ok h
    exact ⟨filterCondition_legible filter he, filterConditions_legible filters hes⟩

end

/-! ### Pages -/

theorem rowCondition_legible {table : BoundTable} {link : Option Link} {filter : Option Filter}
    (h : rowCondition c table link filter n = .ok e n') : e.Legible := by
  obtain ⟨own, join, hown, hjoin, rfl⟩ := rowCondition_ok h
  refine Expr.legible_conj ?_ ?_
  · cases filter with
    | none =>
      obtain ⟨rfl, rfl⟩ := pure_ok_iff.1 hown
      trivial
    | some f => exact filterCondition_legible f hown
  · cases link with
    | none =>
      cases hjoin
      trivial
    | some l => exact joinCondition_legible hjoin

theorem legible_orderColumns (table : BoundTable) (orderBy : List OrderBy) :
    OrderLegible (orderColumns table orderBy) := by
  induction orderBy with
  | nil => trivial
  | cons o orderBy ih => exact ⟨trivial, ih⟩

theorem legible_pageRows {table : BoundTable} {page : Page} (h : e.Legible) :
    (pageRows c table page e).Legible :=
  ⟨trivial, trivial, legible_whereCondition h, legible_orderColumns table page.orderBy⟩

/-- A select of one item over a source. -/
theorem legible_item {key : String} {source : Source} {condition : Expr} {limit : Limit}
    (he : e.Legible) (hsource : source.Legible) (hcondition : condition.Legible) :
    Select.Legible { Select.ofItems [(key, e)] with source := some source, condition, limit } :=
  ⟨⟨by simp, he, trivial⟩, hsource, hcondition, trivial⟩

theorem rowsArray_legible {name : String} {link : Option Link} {page : Page}
    {object : BoundTable → Compile Expr}
    (hobject : ∀ {t n n' e}, object t n = .ok e n' → e.Legible)
    (h : rowsArray c name link page object n = .ok e n') : e.Legible := by
  obtain ⟨condition, m, objects, k, hc, hobjects, rfl, rfl⟩ := rowsArray_ok h
  have hcondition := rowCondition_legible hc
  have hobjs : objects.Legible := by
    cases hobjects with
    | direct _ run => exact legible_item (hobject run) trivial (legible_whereCondition hcondition)
    | ordered _ run => exact legible_item (hobject run) (legible_pageRows hcondition) trivial
  exact Context.legible_tag (by decide) (legible_item ⟨⟨trivial, trivial⟩, trivial⟩ hobjs trivial)

theorem AggregateRun.legible {table : BoundTable} {a : Aggregate} (h : AggregateRun table a e) :
    e.Legible := by
  cases h with
  | rows | values _ | distinct _ => trivial
  | single _ => exact ⟨trivial, trivial⟩

theorem aggregatesSelect_legible {name : String} {link : Option Link} {page : Page}
    {aggregates : List (String × Aggregate)} {s : Select}
    (h : aggregatesSelect c name link page aggregates n = .ok s n') : s.Legible := by
  obtain ⟨condition, m, entries, hc, hentries, rfl, rfl⟩ := aggregatesSelect_ok h
  have hlegible : EntriesLegible entries := by
    clear h
    induction hentries with
    | nil => trivial
    | cons ha _ ih => exact ⟨ha.2.legible, ih⟩
  have hsummary : (Expr.object entries).Legible := hlegible
  exact legible_item (Context.legible_tag (by decide) hsummary)
    (legible_pageRows (rowCondition_legible hc)) trivial

theorem relatedObject_legible {link : Link} {filter : Option Filter}
    {object : BoundTable → Compile Expr}
    (hobject : ∀ {t n n' e}, object t n = .ok e n' → e.Legible)
    (h : relatedObject c link filter object n = .ok e n') : e.Legible := by
  obtain ⟨condition, m, o, hc, ho, rfl⟩ := relatedObject_ok h
  have hrow : (Expr.object [("rows", .call .jsonArray [o])]).Legible :=
    ⟨⟨hobject ho, trivial⟩, trivial⟩
  have hcondition := legible_whereCondition (c := c) (rowCondition_legible hc)
  exact Context.legible_tag (by decide) (legible_item hrow trivial hcondition)

/-! ### Queries -/

mutual

theorem arrayQuery_legible : ∀ (q : Query) {depth : Nat} {name : String} {link : Option Link}
    {n n' : Nat} {e : Expr}, arrayQuery c depth name link q n = .ok e n' → e.Legible
  | ⟨fields, none, _, _, _, _⟩, _, _, _, _, _, _, h =>
    rowsArray_legible (fieldsObject_legible fields) (arrayQuery_rows_ok rfl h)
  | ⟨fields, some aggregates, _, _, _, _⟩, _, _, _, _, _, _, h => by
    obtain ⟨s, m, hs, ⟨-, rfl, rfl⟩ | ⟨rows, -, hrows, rfl⟩⟩ := arrayQuery_aggregates_ok rfl h
    · exact ⟨⟨aggregatesSelect_legible hs, trivial⟩, trivial⟩
    · have hlegible := rowsArray_legible (fieldsObject_legible fields) hrows
      exact ⟨⟨aggregatesSelect_legible hs, trivial⟩, legible_asJson hlegible, trivial⟩

theorem objectQuery_legible : ∀ (q : Query) {depth : Nat} {link : Link} {n n' : Nat} {e : Expr},
    objectQuery c depth link q n = .ok e n' → e.Legible
  | ⟨fields, _, _, _, _, _⟩, _, _, _, _, _, h =>
    relatedObject_legible (fieldsObject_legible fields) (objectQuery_ok h).2

theorem fieldsObject_legible {depth : Nat} : ∀ (fields : Option (List (String × Field)))
    {table : BoundTable} {n n' : Nat} {e : Expr},
    fieldsObject c depth table fields n = .ok e n' → e.Legible
  | none, _, _, _, _, h => by
    obtain ⟨rfl, rfl⟩ := fieldsObject_none_ok h
    have hempty : (Expr.object []).Legible := trivial
    exact Context.legible_tag (by decide) hempty
  | some fields, _, _, _, _, h => by
    obtain ⟨entries, hentries, rfl⟩ := fieldsObject_some_ok h
    have hobject : (Expr.object entries).Legible := fieldEntries_legible fields hentries
    exact Context.legible_tag (by decide) hobject

theorem fieldEntries_legible {depth : Nat} : ∀ (fields : List (String × Field))
    {table : BoundTable} {n n' : Nat} {entries : List (String × Expr)},
    fieldEntries c depth table fields n = .ok entries n' → EntriesLegible entries
  | [], _, _, _, _, h => by
    obtain ⟨rfl, rfl⟩ := fieldEntries_nil_ok h
    trivial
  | (_, field) :: fields, _, _, _, _, h => by
    obtain ⟨e, m, rest, he, hrest, rfl⟩ := fieldEntries_cons_ok h
    exact ⟨fieldValue_legible field he, fieldEntries_legible fields hrest⟩

theorem fieldValue_legible {depth : Nat} : ∀ (field : Field) {table : BoundTable} {n n' : Nat}
    {e : Expr}, fieldValue c depth table field n = .ok e n' → e.Legible
  | .column _, _, _, _, _, h => by
    obtain ⟨rfl, rfl⟩ := fieldValue_column_ok h
    trivial
  | .relationship _ q, _, _, _, _, h => by
    obtain ⟨r, e, -, rfl, ⟨-, he⟩ | ⟨-, he⟩⟩ := fieldValue_relationship_ok h
    · exact legible_asJson (Context.legible_tag (by decide) (objectQuery_legible q he))
    · exact legible_asJson (Context.legible_tag (by decide) (arrayQuery_legible q he))

end

end Compile

theorem Request.legible_compile {settings : QuerySettings} {r : Request} {plan : Plan}
    (h : r.compile settings = .ok plan) : plan.select.Legible := by
  obtain ⟨e, n, he, hs, -⟩ := Request.compile_ok h
  have hquery := Compile.arrayQuery_legible r.query he
  rw [hs]
  exact ⟨⟨by simp, Compile.Context.legible_tag (by decide) hquery, trivial⟩, rfl, trivial, trivial⟩

/-- **The text of a statement is read back as the statement.** Whatever the request and the settings,
all of the text of the compiled select is read, and as its tree: every operator has the operands it
has in the select, and a condition that is not in the text is the constant true. -/
theorem Request.parse_compile {settings : QuerySettings} {r : Request} {plan : Plan}
    (h : r.compile settings = .ok plan) :
    Sql.parse plan.select.statement.text.toList = some (plan.select.tree 0) := by
  have hlegible : plan.select.Legible := Request.legible_compile h
  exact Sql.Select.parse_statement hlegible

/-- A tagged statement with a negation, a disjunction, membership in a list, a comparison along a path
and selects within each other is read back. -/
theorem Music.parse_picks :
    ∃ plan, (Music.picks (.str "Alice")).compile { debugTags := true } = .ok plan ∧
      Sql.parse plan.select.statement.text.toList = some (plan.select.tree 0) := by
  have hcompile : (Music.picks (.str "Alice")).compile { debugTags := true } = .ok _ := rfl
  exact ⟨_, hcompile, Request.parse_compile hcompile⟩

end DataAgent
