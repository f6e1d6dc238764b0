import DataAgent.Proofs.Compile.FilterMeaning
import DataAgent.Proofs.Sql.Documents

/-!
# Proofs — Compile — Query meaning

The expression that a query is compiled to evaluates to the document of the query
(`Compile.arrayQuery_eval`), and so the statement of a request to one row with the document of the
request (`Request.eval_compile`).

A select over a page yields its list for the rows that the query is about, in their order
(`eval_page`), whether it is ordered itself or takes its rows from an ordered select of them. The
array of a page gathers what an expression builds from each row (`Builds`), and the summary computes
its aggregates over all of them at once. Both start from the rows that may be chosen (`Chosen`):
those of the table, or those related to a row of the query around it, which is bound to an alias
older than any of the query's own. The expressions of fields nest queries, so the main theorem and
those about fields are proved together, by recursion on the query.
-/

namespace DataAgent

open Sql

namespace Compile

variable {c : Context} {db : Database} {outer : Env} {name : String} {link : Option Link} {n m : Nat}

theorem Context.isAggregate_tag (c : Context) (rule : String) (e : Expr) :
    (c.tag rule e).isAggregate = e.isAggregate := by
  unfold Context.tag
  split
  · rw [Expr.isAggregate]
  · rfl

/-! ### Rows of a page -/

/-- Which rows of a table a query may choose from, where `n` is the next alias: all of them, or those
related to the row that the alias of the parent table is bound to. -/
inductive Chosen (env : Env) (n : Nat) : Option Link → (Tuple → Bool) → Prop
  | all : Chosen env n none fun _ => true
  | related {link : Link} {row : Tuple} (older : link.parent.label.index < n)
      (bound : env.lookup link.parent.label = some row) :
      Chosen env n (some link) (link.relationship.relates row)

theorem Chosen.mono {env : Env} {q : Tuple → Bool} (h : Chosen env n link q) (hle : n ≤ m) :
    Chosen env m link q := by
  cases h with
  | all => exact .all
  | related older bound => exact .related (Nat.lt_of_lt_of_le older hle) bound

/-- A row passes the filter of a query, if there is one. -/
def passes (rels : List TableRelationships) (db : Database) (table : String) (filter : Option Filter)
    (row : Tuple) : Bool :=
  filter.all fun f => f.truth rels db table row == some true

theorem ownCondition_decides {filter : Option Filter} {e : Expr} {row : Tuple}
    (h : ownCondition c (.fresh name n) filter (n + 1) = .ok e m) :
    e.Decides db { env := ((BoundTable.fresh name n).label, row) :: outer }
      (passes c.relationships db name filter row = true) := by
  cases filter with
  | none =>
    obtain ⟨rfl, -⟩ := pure_ok_iff.1 h
    exact Expr.decides_always.congr (by simp [passes])
  | some f =>
    have heval : e.eval db { env := ((BoundTable.fresh name n).label, row) :: outer } = _ :=
      filterCondition_eval (lookup_cons_self _ row outer) f h (.inl (Nat.lt_succ_self n))
    exact (Expr.Decides.of_eval heval).congr (by simp [passes])

theorem linkCondition_decides {e : Expr} {row : Tuple} {q : Tuple → Bool}
    (h : linkCondition (.fresh name n) link = .ok e) (hq : Chosen outer n link q) :
    e.Decides db { env := ((BoundTable.fresh name n).label, row) :: outer } (q row = true) := by
  cases hq with
  | all =>
    cases h
    exact Expr.decides_always.congr (by simp)
  | related older bound =>
    refine joinCondition_decides h ?_ (lookup_cons_self _ _ _)
    rw [lookup_cons_of_index_ne _ (Nat.ne_of_lt older), bound]

theorem whereCondition_decides {e : Expr} {f : Frame} {P : Prop} (h : e.Decides db f P) :
    (whereCondition c e).Decides db f P := by
  unfold whereCondition
  split
  · exact h
  · obtain ⟨t, ht, hp⟩ := h
    exact ⟨t, by rw [Context.eval_tag, ht], hp⟩

theorem rowCondition_decides {filter : Option Filter} {e : Expr} {row : Tuple} {q : Tuple → Bool}
    (h : rowCondition c (.fresh name n) link filter (n + 1) = .ok e m) (hq : Chosen outer n link q) :
    (whereCondition c e).Decides db { env := ((BoundTable.fresh name n).label, row) :: outer }
      ((passes c.relationships db name filter row && q row) = true) := by
  obtain ⟨own, join, hown, hjoin, rfl⟩ := rowCondition_ok h
  refine whereCondition_decides (((ownCondition_decides hown).conj
    (linkCondition_decides hjoin hq)).congr ?_)
  rw [Bool.and_eq_true]

/-- The key of a row in an order. -/
def orderKey (order : List OrderBy) (row : Tuple) : List (Cell × Direction) :=
  order.map fun o => ((row.get o.column).cell, o.direction)

theorem evalKey_orderColumns {table : BoundTable} {env : Env} {row : Tuple} (order : List OrderBy)
    (h : env.lookup table.label = some row) :
    evalKey db { env } (orderColumns table order) = .ok (orderKey order row) := by
  induction order with
  | nil => rfl
  | cons o order ih =>
    rw [orderColumns, List.map_cons, evalKey, BoundTable.eval_column h]
    rw [orderColumns] at ih
    rw [ih]
    rfl

theorem keyLe_orderKey (order : List OrderBy) (a b : Tuple) :
    keyLe (orderKey order a) (orderKey order b) = rowLe order a b := by
  induction order with
  | nil => rfl
  | cons o order ih =>
    simp only [orderKey, List.map_cons] at ih ⊢
    cases hcompare : (a.get o.column).cell.compare (b.get o.column).cell with
    | eq => simp only [keyLe, rowLe, hcompare, ih]
    | lt | gt => cases hdirection : o.direction <;> simp [keyLe, rowLe, hcompare, hdirection]

theorem page_eq_elim {α : Type} (l : Limit) (items : List α) :
    l.page items =
      l.limit.elim (items.drop (l.offset.getD 0)) (items.drop (l.offset.getD 0)).take := by
  unfold Limit.page
  cases l.limit <;> rfl

/-- The rows that a page is about, among those that may be chosen. -/
def Page.rows (rels : List TableRelationships) (db : Database) (table : String)
    (candidates : List Tuple) (page : Page) : List Tuple :=
  pageRowsOf rels db table candidates page.filter page.orderBy page.limit.limit page.limit.offset

/-- A select over the rows of a page yields its list for each of them. -/
theorem eval_page (page : Page) {condition : Expr} {q : Tuple → Bool} {list : SelectList}
    (hcondition : rowCondition c (.fresh name n) link page.filter (n + 1) = .ok condition m)
    (hq : Chosen outer n link q) (hlist : list.isAggregate = false) :
    Select.eval db outer
      { list
        source := some (BoundTable.fresh name n).source
        condition := whereCondition c condition
        orderBy := orderColumns (.fresh name n) page.orderBy
        limit := page.limit } =
    .ok ((page.rows c.relationships db name ((db.rowsOf name).filter q)).map fun row =>
      list.eval db [((BoundTable.fresh name n).label, row)]
        { env := ((BoundTable.fresh name n).label, row) :: outer }) := by
  have hsource : evalSource db outer (some (BoundTable.fresh name n).source) =
      .ok ((db.rowsOf name).map fun row => [((BoundTable.fresh name n).label, row)]) := rfl
  rw [Select.eval_single _ _ hsource rfl hlist (fun row _ => rowCondition_decides hcondition hq)
    (fun row _ => evalKey_orderColumns page.orderBy (lookup_cons_self _ row outer))]
  simp only [keyLe_orderKey, Page.rows, pageRowsOf, List.filter_filter, page_eq_elim]
  rfl

theorem Page.mem_rowsOf_of_mem_rows {page : Page} {rels : List TableRelationships}
    {q : Tuple → Bool} {row : Tuple}
    (h : row ∈ page.rows rels db name ((db.rowsOf name).filter q)) : row ∈ db.rowsOf name := by
  have hsorted : row ∈ (((db.rowsOf name).filter q).filter fun row =>
      page.filter.all fun f => f.truth rels db name row == some true).mergeSort
        (rowLe page.orderBy) := by
    unfold Page.rows pageRowsOf at h
    cases hl : page.limit.limit with
    | none =>
      rw [hl] at h
      exact List.mem_of_mem_drop h
    | some k =>
      rw [hl] at h
      exact List.mem_of_mem_drop (List.mem_of_mem_take h)
  exact (List.mem_filter.1 (List.mem_filter.1 (List.mem_mergeSort.1 hsorted)).1).1

/-- The rows of a page, taken from a select of them. -/
theorem evalSource_pageRows {page : Page} {condition : Expr} {q : Tuple → Bool}
    (hcondition : rowCondition c (.fresh name n) link page.filter (n + 1) = .ok condition m)
    (hq : Chosen outer n link q) (label : TableAlias) :
    evalSource db outer (some (.select (pageRows c (.fresh name n) page condition) label)) =
      .ok ((page.rows c.relationships db name ((db.rowsOf name).filter q)).map
        fun row => [(label, row)]) := by
  have hrows : (pageRows c (.fresh name n) page condition).eval db outer =
      .ok ((page.rows c.relationships db name ((db.rowsOf name).filter q)).map .ok) := by
    rw [pageRows, eval_page page hcondition hq rfl]
    congr 1
    refine List.map_congr_left fun row _ => ?_
    simp [SelectList.eval, pure, Except.pure]
  rw [evalSource_select hrows, mapM_id_map_ok]
  refine congrArg Except.ok (List.map_congr_left fun row hrow => ?_)
  rw [Tuple.untyped_of_mem_rowsOf (Page.mem_rowsOf_of_mem_rows hrow)]

/-! ### Arrays of objects -/

/-- The expressions of the rows of a table compute no aggregate, and each evaluates to the document of
the row that its alias is bound to. -/
def Builds (db : Database) (name : String) (object : BoundTable → Compile Expr)
    (document : Tuple → Except EngineError Json) : Prop :=
  ∀ {t : BoundTable} {m k : Nat} {e : Expr}, t.name = name → object t m = .ok e k →
    e.isAggregate = false ∧ ∀ (f : Frame) (row : Tuple), f.env.lookup t.label = some row →
      t.label.index < m → e.eval db f = (document row).map .ofJson

section Objects

variable {page : Page} {condition e : Expr} {q : Tuple → Bool} {object : BoundTable → Compile Expr}
  {document : Tuple → Except EngineError Json} {f : Frame}

/-- Both plans yield the documents of the rows of the page, in their order. -/
theorem ObjectsRun.eval {objects : Select} {k : Nat} (hobject : Builds db name object document)
    (hcondition : rowCondition c (.fresh name n) link page.filter (n + 1) = .ok condition m)
    (hq : Chosen outer n link q) (run : ObjectsRun c name page object n condition m objects k) :
    objects.eval db outer = .ok ((page.rows c.relationships db name ((db.rowsOf name).filter q)).map
      fun row => (document row).map fun j => [("j", .ofJson j)]) := by
  have item {e : Expr} {row : Tuple} {f : Frame} (h : e.eval db f = (document row).map .ofJson) :
      evalItems db f [("j", e)] = (document row).map fun j => [("j", .ofJson j)] := by
    rw [evalItems_single, h]
    cases document row <;> rfl
  cases run with
  | direct plain run =>
    obtain ⟨hplain, heval⟩ := hobject rfl run
    have hpage : Select.eval db outer _ = _ :=
      eval_page page hcondition hq ((SelectList.isAggregate_single "j" _).trans hplain)
    rw [plain] at hpage
    refine hpage.trans (congrArg _ (List.map_congr_left fun row _ => ?_))
    exact item (heval _ row (lookup_cons_self _ _ _) (rowCondition_fills hcondition).le)
  | ordered sorted run =>
    obtain ⟨hplain, heval⟩ := hobject rfl run
    rw [orderedObjects, Select.eval_ofItems (evalSource_pageRows hcondition hq _)
      ((SelectList.isAggregate_single "j" _).trans hplain)]
    refine congrArg _ (List.map_congr_left fun row _ => ?_)
    exact item (heval _ row (lookup_cons_self _ _ _) (Nat.lt_succ_self m))

/-- All documents under an alias, gathered into an array. -/
theorem eval_gather (label : TableAlias) (js : List Json) (env : Env) :
    (Expr.call .jsonGroupArray [.asJson (.column (.derived (.aliased label) "j"))]).eval db
      { env, group := js.map fun j => (label, [("j", { content := .document j false })]) :: outer } =
      .ok (.ofJson (.arr js)) := by
  have hread : ∀ j ∈ js, (Expr.asJson (.column (.derived (.aliased label) "j"))).eval db
      { env := (label, [("j", { content := .document j false })]) :: outer } = .ok (.ofJson j) := by
    intro j _
    simp [Expr.asJson, Expr.eval, Env.column, ColumnRef.parts, TableRef.find?, Tuple.get, sameName,
      readJson, bind, Except.bind, pure, Except.pure]
  rw [Expr.eval_aggregate (by simp) (by simp) rfl hread]
  simp [aggregateOf, Datum.ofJson, Content.embed, Function.comp_def]

/-- The array of the documents that a select yields. -/
theorem eval_arrayOf {objects : Select} {rows : List Tuple}
    (h : objects.eval db f.env = .ok (rows.map fun row => (document row).map fun j => [("j", .ofJson j)]))
    (label : TableAlias) :
    (Expr.subselect (arrayOf objects label)).eval db f =
      ((rows.mapM document).map .arr).map fun j => { content := .document j false } := by
  have hsource := evalSource_select h label
  rw [mapM_id_map] at hsource
  cases hdocs : rows.mapM document with
  | error err =>
    rw [hdocs] at hsource
    exact Expr.eval_subselect_error (Select.eval_error hsource)
  | ok js =>
    rw [hdocs] at hsource
    have hrows : evalSource db f.env (some (.select objects label)) = .ok
        ((js.map fun j => [("j", { content := .document j false })]).map fun row => [(label, row)]) := by
      rw [hsource]
      simp [Except.map, Tuple.untyped, Datum.untyped, Content.untyped, Datum.ofJson]
    obtain ⟨env, hgroup⟩ := Select.eval_ofItems_group hrows (SelectList.isAggregate_single "array"
      (.call .jsonGroupArray [.asJson (.column (.derived (.aliased label) "j"))]))
    rw [arrayOf, Expr.eval_subselect hgroup, evalItems_single, List.map_map]
    simp only [Function.comp_def, eval_gather]
    rfl

theorem rowsArray_eval (hobject : Builds db name object document) (hq : Chosen f.env n link q)
    (h : rowsArray c name link page object n = .ok e m) :
    e.eval db f = (((page.rows c.relationships db name ((db.rowsOf name).filter q)).mapM
      document).map .arr).map fun j => { content := .document j false } := by
  obtain ⟨condition, m', objects, k, hcondition, run, rfl, -⟩ := rowsArray_ok h
  rw [Context.eval_tag]
  exact eval_arrayOf (run.eval hobject hcondition hq) _

theorem eval_rowsObject {o : Expr} {row : Tuple} (h : o.eval db f = (document row).map .ofJson) :
    (Expr.object [("rows", .call .jsonArray [o])]).eval db f =
      (document row).map fun j => .ofJson (.obj [("rows", .arr [j])]) := by
  have harray : (Expr.call .jsonArray [o]).eval db f =
      ((document row).map fun j => .arr [j]).map .ofJson := by
    rw [Expr.eval_jsonArray, Expr.embeds_of_eval_ofJson h]
    cases document row <;> rfl
  rw [Expr.eval_object, embedItems_cons, Expr.embeds_of_eval_ofJson harray]
  cases document row <;> rfl

/-- The object of the first row of a page, in an array. -/
theorem eval_objectOf {o : Expr} {filter : Option Filter} {l : Link}
    (hobject : Builds db name object document)
    (hcondition : rowCondition c (.fresh name n) (some l) filter (n + 1) = .ok condition m)
    (hq : Chosen f.env n (some l) q) {k : Nat} (run : object (.fresh name n) m = .ok o k) :
    (Expr.subselect (objectOf c (.fresh name n) condition o)).asJson.embeds db f =
      (pageRowsOf c.relationships db name ((db.rowsOf name).filter q) filter [] none none).head?.elim
        (.ok .null) fun row => (document row).map fun j => .obj [("rows", .arr [j])] := by
  obtain ⟨hplain, heval⟩ := hobject rfl run
  have hlist : (Expr.object [("rows", .call .jsonArray [o])]).isAggregate = false := by
    simp [Expr.isAggregate, anyAggregateEntry, anyAggregate, hplain]
  have hpage : (objectOf c (.fresh name n) condition o).eval db f.env = _ :=
    eval_page { filter, orderBy := [], limit := {} } hcondition hq
      ((SelectList.isAggregate_single "object" _).trans hlist)
  have hselect := Expr.eval_subselect hpage
  rw [List.head?_map, Page.rows] at hselect
  cases hrows : (pageRowsOf c.relationships db name ((db.rowsOf name).filter q) filter [] none
    none).head? with
  | none =>
    rw [hrows] at hselect
    exact Expr.embeds_asJson_null hselect
  | some row =>
    rw [hrows] at hselect
    have hobj := eval_rowsObject (heval { env := ((BoundTable.fresh name n).label, row) :: f.env }
      row (lookup_cons_self _ _ _) (rowCondition_fills hcondition).le)
    have hfirst : (Expr.subselect (objectOf c (.fresh name n) condition o)).eval db f =
        ((document row).map fun j => .obj [("rows", .arr [j])]).map
          fun j => { content := .document j false } := by
      refine hselect.trans ?_
      show Except.map _ (evalItems db _ [("object", _)]) = _
      rw [evalItems_single, hobj]
      cases document row <;> rfl
    exact Expr.embeds_asJson hfirst

end Objects

/-! ### Aggregates -/

section Aggregates

variable {table : BoundTable} {rows : List Tuple} {env : Env} {a : Aggregate} {e : Expr}

theorem column_cons (label : TableAlias) (row : Tuple) (column : String) :
    Env.column ((label, row) :: outer) (.stored (.aliased label) column) = row.get column := by
  simp [Env.column, ColumnRef.parts, TableRef.find?]

theorem AggregateRun.isAggregate (run : AggregateRun table a e) : e.isAggregate = true := by
  cases run with
  | single named =>
    unfold aggregateFunction at named
    split at named <;> cases named <;> rfl
  | rows | values | distinct => rfl

/-- An aggregate over the rows bound to an alias is the value of the aggregate over the rows. -/
theorem AggregateRun.eval (run : AggregateRun table a e) :
    e.eval db { env, group := rows.map fun row => (table.label, row) :: outer } =
      (a.value rows).map .ofCell := by
  cases run with
  | rows =>
    rw [Expr.eval]
    simp [Count.eval, Aggregate.value, Except.map, pure, Except.pure]
  | values column | distinct column =>
    rw [Expr.eval]
    simp [Count.eval, Aggregate.value, Except.map, pure, Except.pure, Function.comp_def, column_cons]
  | @single column function f named =>
    have hvalue : ∀ row ∈ rows, (table.column column).eval db { env := (table.label, row) :: outer } =
        .ok (row.get column) := fun row _ => BoundTable.eval_column (lookup_cons_self _ _ _) _
    unfold aggregateFunction at named
    split at named
    case h_5 => cases named
    all_goals
      cases named
      rw [Expr.eval_aggregate (by simp) (by simp) rfl hvalue]
      simp only [aggregateOf, Aggregate.value, List.map_map]
      rfl

theorem aggregateMembers_cons (rows : List Tuple) (key : String) (a : Aggregate)
    (aggregates : List (String × Aggregate)) :
    aggregateMembers rows ((key, a) :: aggregates) = do
      return (key, (Content.cell (← a.value rows)).embed) :: (← aggregateMembers rows aggregates) := by
  rw [aggregateMembers, List.mapM_cons]
  dsimp only
  cases a.value rows <;> rfl

theorem embedItems_aggregates {aggregates : List (String × Aggregate)}
    {entries : List (String × Expr)}
    (h : List.Forall₂ (fun a e => e.1 = a.1 ∧ AggregateRun table a.2 e.2) aggregates entries) :
    embedItems db { env, group := rows.map fun row => (table.label, row) :: outer } entries =
      aggregateMembers rows aggregates := by
  induction h with
  | nil => rfl
  | @cons a entry aggregates entries hfirst _ ih =>
    obtain ⟨key, a⟩ := a
    obtain ⟨_, e⟩ := entry
    obtain ⟨rfl, run⟩ := hfirst
    rw [embedItems_cons, ih, Expr.embeds, run.eval, aggregateMembers_cons]
    cases a.value rows <;> rfl

theorem anyAggregateEntry_of_forall₂ {aggregates : List (String × Aggregate)}
    {entries : List (String × Expr)}
    (h : List.Forall₂ (fun a e => e.1 = a.1 ∧ AggregateRun table a.2 e.2) aggregates entries) :
    anyAggregateEntry entries = !aggregates.isEmpty := by
  cases h with
  | nil => rfl
  | cons hfirst _ => simp [anyAggregateEntry, hfirst.2.isAggregate]

theorem isEmpty_of_aggregateMembers {aggregates : List (String × Aggregate)}
    {members : List (String × Json)} (h : aggregateMembers rows aggregates = .ok members) :
    members.isEmpty = aggregates.isEmpty := by
  cases forall₂_of_mapM_ok h <;> rfl

/-- The object with the aggregates over the rows of a page. Without aggregates it is an object for each
row, so it is null when there are no rows. -/
theorem embeds_summaryOf {f : Frame} {page : Page} {condition : Expr} {q : Tuple → Bool}
    {aggregates : List (String × Aggregate)} {entries : List (String × Expr)}
    (hcondition : rowCondition c (.fresh name n) link page.filter (n + 1) = .ok condition m)
    (hq : Chosen f.env n link q)
    (h : List.Forall₂ (fun a e => e.1 = a.1 ∧ AggregateRun (.fresh name m) a.2 e.2) aggregates
      entries) :
    (Expr.subselect (summaryOf c (.fresh name n) (.fresh name m) page condition entries)).asJson.embeds
        db f =
      (aggregateMembers (page.rows c.relationships db name ((db.rowsOf name).filter q))
        aggregates).map (Summary.ofRows (page.rows c.relationships db name ((db.rowsOf name).filter q))) := by
  generalize hrows : page.rows c.relationships db name ((db.rowsOf name).filter q) = rows
  have hsource : evalSource db f.env _ = _ :=
    evalSource_pageRows hcondition hq (BoundTable.fresh name m).label
  rw [hrows] at hsource
  have hlist : (SelectList.items [("aggregates", c.tag "aggregates" (.object entries))]).isAggregate =
      !aggregates.isEmpty := by
    rw [SelectList.isAggregate_single, Context.isAggregate_tag, Expr.isAggregate,
      anyAggregateEntry_of_forall₂ h]
  cases aggregates with
  | nil =>
    cases h
    have hselect := Expr.eval_subselect (Select.eval_ofItems hsource hlist)
    cases rows with
    | nil => exact Expr.embeds_asJson_null hselect
    | cons row rows =>
      have hempty : (Expr.subselect (summaryOf c (.fresh name n) (.fresh name m) page condition
          [])).eval db f = (Except.ok (.obj [])).map fun j => { content := .document j false } := by
        refine hselect.trans ?_
        simp [evalItems_single, Context.eval_tag, Expr.eval_object, embedItems_nil, Except.map,
          Datum.ofJson, Datum.untyped, Content.untyped]
      exact Expr.embeds_asJson hempty
  | cons a aggregates =>
    obtain ⟨env, hgroup⟩ := Select.eval_ofItems_group hsource hlist
    have hselect := Expr.eval_subselect hgroup
    have hmembers : (Expr.subselect (summaryOf c (.fresh name n) (.fresh name m) page condition
        entries)).eval db f = ((aggregateMembers rows (a :: aggregates)).map .obj).map
          fun j => { content := .document j false } := by
      refine hselect.trans ?_
      simp only [List.head?_cons, Option.elim_some, evalItems_single, Context.eval_tag,
        Expr.eval_object, embedItems_aggregates h]
      cases aggregateMembers rows (a :: aggregates) <;> rfl
    rw [Expr.embeds_asJson hmembers]
    cases hok : aggregateMembers rows (a :: aggregates) with
    | error => rfl
    | ok members =>
      simp [Except.map, Summary.ofRows, isEmpty_of_aggregateMembers hok]

end Aggregates

/-! ### Queries and fields -/

theorem Context.embeds_asJson_tag {f : Frame} (c : Context) (rule : String) (e : Expr) :
    (c.tag rule e).asJson.embeds db f = e.asJson.embeds db f := by
  simp only [Expr.embeds, Expr.asJson, Expr.eval, Context.eval_tag]

section Plain

variable {depth : Nat} {e : Expr}

theorem rowsArray_isAggregate {page : Page} {object : BoundTable → Compile Expr}
    (h : rowsArray c name link page object n = .ok e m) : e.isAggregate = false := by
  obtain ⟨_, _, _, _, _, _, rfl, _⟩ := rowsArray_ok h
  rw [Context.isAggregate_tag, Expr.isAggregate]

theorem isAggregate_asJson_tag (c : Context) (rule : String) (e : Expr) :
    (c.tag rule e).asJson.isAggregate = e.isAggregate := by
  simp [Expr.asJson, Expr.isAggregate, anyAggregate, Context.isAggregate_tag]

theorem arrayQuery_isAggregate {q : Query} (h : arrayQuery c depth name link q n = .ok e m) :
    e.isAggregate = false := by
  cases hq : q.aggregates with
  | none => exact rowsArray_isAggregate (arrayQuery_rows_ok hq h)
  | some aggregates =>
    obtain ⟨s, k, -, ⟨-, rfl, -⟩ | ⟨rows, -, hrows, rfl⟩⟩ := arrayQuery_aggregates_ok hq h
    · simp [Expr.isAggregate, anyAggregateEntry, Expr.asJson, anyAggregate]
    · simp [Expr.isAggregate, anyAggregateEntry, Expr.asJson, anyAggregate,
        rowsArray_isAggregate hrows]

theorem objectQuery_isAggregate {link : Link} {q : Query}
    (h : objectQuery c depth link q n = .ok e m) : e.isAggregate = false := by
  obtain ⟨_, _, _, _, _, rfl⟩ := relatedObject_ok (objectQuery_ok h).2
  rw [Context.isAggregate_tag, Expr.isAggregate]

theorem fieldValue_isAggregate {table : BoundTable} {field : Field}
    (h : fieldValue c depth table field n = .ok e m) : e.isAggregate = false := by
  cases field with
  | column name =>
    obtain ⟨rfl, -⟩ := fieldValue_column_ok h
    rfl
  | relationship name q =>
    obtain ⟨r, e, -, rfl, ⟨-, he⟩ | ⟨-, he⟩⟩ := fieldValue_relationship_ok h
    · rw [isAggregate_asJson_tag, objectQuery_isAggregate he]
    · rw [isAggregate_asJson_tag, arrayQuery_isAggregate he]

theorem fieldEntries_isAggregate {table : BoundTable} :
    ∀ {fields : List (String × Field)} {n : Nat} {entries : List (String × Expr)},
      fieldEntries c depth table fields n = .ok entries m → anyAggregateEntry entries = false
  | [], _, _, h => by
    obtain ⟨rfl, -⟩ := fieldEntries_nil_ok h
    rfl
  | (_, _) :: _, _, _, h => by
    obtain ⟨_, _, _, he, hrest, rfl⟩ := fieldEntries_cons_ok h
    rw [anyAggregateEntry, fieldValue_isAggregate he, fieldEntries_isAggregate hrest]
    rfl

end Plain

section Documents

variable {q : Query} {summary : Summary} {rels : List TableRelationships} {candidates : List Tuple}

theorem document_rows (hq : q.aggregates = none) :
    q.document summary rels db name candidates =
      (((pageOf q).rows rels db name candidates).mapM fun row =>
        fieldsDocument summary rels db name row q.fields).map .arr := by
  obtain ⟨fields, _, filter, orderBy, limit, offset⟩ := q
  subst hq
  exact bind_pure_eq_map _ _

theorem document_aggregates {aggregates : List (String × Aggregate)}
    (hq : q.aggregates = some aggregates) (hfields : q.fields = none) :
    q.document summary rels db name candidates =
      (aggregateMembers ((pageOf q).rows rels db name candidates) aggregates).map fun members =>
        .obj [("aggregates", summary ((pageOf q).rows rels db name candidates) members)] := by
  obtain ⟨fields, _, filter, orderBy, limit, offset⟩ := q
  subst hq hfields
  exact bind_pure_eq_map _ _

theorem document_both {aggregates : List (String × Aggregate)}
    (hq : q.aggregates = some aggregates) (hfields : q.fields ≠ none) :
    q.document summary rels db name candidates = (do
      let members ← aggregateMembers ((pageOf q).rows rels db name candidates) aggregates
      let objects ← ((pageOf q).rows rels db name candidates).mapM fun row =>
        fieldsDocument summary rels db name row q.fields
      return .obj [("aggregates", summary ((pageOf q).rows rels db name candidates) members),
        ("rows", .arr objects)]) := by
  obtain ⟨fields, _, filter, orderBy, limit, offset⟩ := q
  subst hq
  cases fields with
  | none => exact absurd rfl hfields
  | some fields => rfl

end Documents

mutual

/-- The expression of a query evaluates to the document of the query. -/
theorem arrayQuery_eval :
    ∀ (q : Query) {depth : Nat} {name : String} {link : Option Link} {n n' : Nat} {e : Expr}
      {f : Frame} {p : Tuple → Bool}, arrayQuery c depth name link q n = .ok e n' →
      Chosen f.env n link p →
      e.eval db f = (q.document .ofRows c.relationships db name ((db.rowsOf name).filter p)).map
        fun j => { content := .document j q.aggregates.isSome }
  | ⟨fields, none, filter, orderBy, limit, offset⟩, _, _, _, _, _, _, _, _, h, hp => by
    rw [rowsArray_eval (fieldsObject_builds fields) hp (arrayQuery_rows_ok rfl h), document_rows rfl]
    rfl
  | ⟨fields, some aggregates, filter, orderBy, limit, offset⟩, _, _, _, _, _, _, _, _, h, hp => by
    obtain ⟨s, m, hs, hresult⟩ := arrayQuery_aggregates_ok rfl h
    obtain ⟨condition, k, entries, hcondition, hentries, rfl, rfl⟩ := aggregatesSelect_ok hs
    have hsummary : Expr.embeds db _ _ = _ := embeds_summaryOf hcondition hp hentries
    rcases hresult with ⟨hnone, rfl, -⟩ | ⟨rows, hsome, hrows, rfl⟩
    · rw [Expr.eval_object, embedItems_cons, hsummary, document_aggregates rfl hnone]
      cases aggregateMembers _ aggregates <;> rfl
    · have hle := (aggregatesSelect_fills hs).le
      have hrows := Expr.embeds_asJson
        (rowsArray_eval (fieldsObject_builds fields) (hp.mono hle) hrows)
      rw [Expr.eval_object, embedItems_cons, hsummary, embedItems_cons, hrows, document_both rfl hsome]
      cases aggregateMembers _ aggregates with
      | error => rfl
      | ok members => cases List.mapM (m := Except EngineError) _ (Page.rows _ _ _ _ _) <;> rfl

/-- The expression of a query over one related row evaluates to the document of that row. -/
theorem objectQuery_embeds :
    ∀ (q : Query) {depth : Nat} {link : Link} {n n' : Nat} {e : Expr} {f : Frame}
      {p : Tuple → Bool}, objectQuery c depth link q n = .ok e n' → Chosen f.env n (some link) p →
      e.asJson.embeds db f = q.objectDocument .ofRows c.relationships db link.relationship.target
        ((db.rowsOf link.relationship.target).filter p)
  | ⟨fields, _, filter, _, _, _⟩, _, _, _, _, _, _, _, h, hp => by
    obtain ⟨condition, m, o, hcondition, ho, rfl⟩ := relatedObject_ok (objectQuery_ok h).2
    rw [Context.embeds_asJson_tag, eval_objectOf (fieldsObject_builds fields) hcondition hp ho,
      Query.objectDocument]
    cases (pageRowsOf _ db _ _ filter [] none none).head? with
    | none => rfl
    | some row => exact (bind_pure_eq_map _ _).symm

/-- The expression of the object of a row evaluates to the document of the row. -/
theorem fieldsObject_builds :
    ∀ (fields : Option (List (String × Field))) {depth : Nat} {name : String},
      Builds db name (fun t => fieldsObject c depth t fields)
        fun row => fieldsDocument .ofRows c.relationships db name row fields
  | none, _, _, _, _, _, _, _, h => by
    obtain ⟨rfl, -⟩ := fieldsObject_none_ok h
    refine ⟨by simp [Context.isAggregate_tag, Expr.isAggregate, anyAggregateEntry], fun f row _ _ => ?_⟩
    rw [Context.eval_tag, Expr.eval_object]
    rfl
  | some fields, _, _, _, _, _, _, hname, h => by
    obtain ⟨entries, hentries, rfl⟩ := fieldsObject_some_ok h
    refine ⟨?_, fun f row hrow hindex => ?_⟩
    · rw [Context.isAggregate_tag, Expr.isAggregate, fieldEntries_isAggregate hentries]
    · subst hname
      simp only [Context.eval_tag, Expr.eval_object, fieldEntries_embeds fields hentries hrow hindex,
        fieldsDocument]
      cases fieldMembers .ofRows c.relationships db _ row fields <;> rfl

/-- The expressions of the fields of a row are the members of its document. -/
theorem fieldEntries_embeds :
    ∀ (fields : List (String × Field)) {depth : Nat} {table : BoundTable} {n n' : Nat}
      {entries : List (String × Expr)} {f : Frame} {row : Tuple},
      fieldEntries c depth table fields n = .ok entries n' → f.env.lookup table.label = some row →
      table.label.index < n →
      embedItems db f entries = fieldMembers .ofRows c.relationships db table.name row fields
  | [], _, _, _, _, _, _, _, h, _, _ => by
    obtain ⟨rfl, -⟩ := fieldEntries_nil_ok h
    rfl
  | (key, field) :: fields, _, _, _, _, _, _, _, h, hrow, hindex => by
    obtain ⟨e, m, rest, he, hrest, rfl⟩ := fieldEntries_cons_ok h
    have hle := (fieldValue_fills field he).le
    rw [embedItems_cons, fieldValue_embeds field he hrow hindex,
      fieldEntries_embeds fields hrest hrow (by omega), fieldMembers]

/-- The expression of a field of a row is the document of the field. -/
theorem fieldValue_embeds :
    ∀ (field : Field) {depth : Nat} {table : BoundTable} {n n' : Nat} {e : Expr} {f : Frame}
      {row : Tuple}, fieldValue c depth table field n = .ok e n' →
      f.env.lookup table.label = some row → table.label.index < n →
      e.embeds db f = field.document .ofRows c.relationships db table.name row
  | .column name, _, _, _, _, _, _, _, h, hrow, _ => by
    obtain ⟨rfl, -⟩ := fieldValue_column_ok h
    rw [Expr.embeds, BoundTable.eval_column hrow]
    rfl
  | .relationship name q, _, _, _, _, _, _, _, h, hrow, hindex => by
    obtain ⟨r, e, hr, rfl, he⟩ := fieldValue_relationship_ok h
    rw [Context.embeds_asJson_tag, Field.document, Context.relationshipOf_of_lookup hr]
    rcases he with ⟨hkind, he⟩ | ⟨hkind, he⟩
    · simp only [hkind]
      exact objectQuery_embeds q he (.related hindex hrow)
    · simp only [hkind]
      exact Expr.embeds_asJson (arrayQuery_eval q he (.related hindex hrow))

end

end Compile

/-- The statement of a request yields one row, whose only column is the document of the request. -/
theorem Request.eval_compile {settings : QuerySettings} {r : Request} {plan : Plan} {db : Database}
    (h : r.compile settings = .ok plan) :
    plan.select.eval db [] = .ok [(r.document .ofRows db).map fun j =>
      [(plan.resultColumn, { content := .document j r.query.aggregates.isSome })]] := by
  obtain ⟨e, n, hrun, hselect, hcolumn⟩ := Request.compile_ok h
  have heval : e.eval db { env := [] } = _ := Compile.arrayQuery_eval r.query hrun .all
  have hlist : (SelectList.items [("data", Compile.Context.tag
      { relationships := r.relationships, settings } "query" e)]).isAggregate = false := by
    rw [SelectList.isAggregate_single, Compile.Context.isAggregate_tag,
      Compile.arrayQuery_isAggregate hrun]
  rw [hselect, hcolumn, Select.eval_ofItems_alone hlist, evalItems_single, Compile.Context.eval_tag,
    heval, List.filter_true, Request.document]
  cases r.query.document .ofRows r.relationships db r.table (db.rowsOf r.table) <;> rfl

end DataAgent
