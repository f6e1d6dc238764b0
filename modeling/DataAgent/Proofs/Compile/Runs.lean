import DataAgent.Compile.Query
import DataAgent.Proofs.Sql.Outcomes

/-!
# Proofs — Compile — Runs

What a successful run of the compiler consists of. A run takes the alias counter from one value to
another; it succeeds when each of its steps does, and the expression it gives is put together from
theirs. There is one inversion for each function of the compiler (`rowCondition_ok`,
`rowsArray_ok`, `fieldValue_ok`, …), so that what is said of all runs is said without opening the
functions again. A path that a comparison follows is a `Walk`, and the three kinds of comparison share
one form (`ComparisonRun`).
-/

namespace DataAgent

namespace Compile

open Sql (Expr Select)

variable {α β : Type} {n n' : Nat}

/-! ### Single steps -/

theorem bind_ok_iff {x : Compile α} {f : α → Compile β} {b : β} :
    (x >>= f) n = .ok b n' ↔ ∃ a m, x n = .ok a m ∧ f a m = .ok b n' := by
  show EStateM.bind x f n = .ok b n' ↔ _
  unfold EStateM.bind
  cases x n with
  | ok a m =>
    constructor
    · intro h
      exact ⟨a, m, rfl, h⟩
    · rintro ⟨_, _, ⟨⟩, h⟩
      exact h
  | error e m => simp

theorem pure_ok_iff {a b : α} : (pure a : Compile α) n = .ok b n' ↔ a = b ∧ n = n' := by
  show EStateM.Result.ok a n = .ok b n' ↔ _
  simp

theorem throw_ok_iff {e : CompileError} {b : α} :
    (throw e : Compile α) n = .ok b n' ↔ False := by
  show EStateM.Result.error e n = .ok b n' ↔ _
  simp

theorem ite_ok_iff {p : Prop} [Decidable p] {x y : Compile α} {b : α} :
    (if p then x else y) n = .ok b n' ↔ (p ∧ x n = .ok b n') ∨ (¬ p ∧ y n = .ok b n') := by
  split <;> simp_all

theorem ofExcept_ok_iff {x : Except CompileError α} {a : α} :
    ofExcept x n = .ok a n' ↔ x = .ok a ∧ n = n' := by
  cases x with
  | ok b => simp [ofExcept, pure_ok_iff]
  | error e => simp [ofExcept, throw_ok_iff]

/-- The table bound to the alias that the counter gives next. -/
def BoundTable.fresh (name : String) (n : Nat) : BoundTable := { name, label := { name, index := n } }

@[simp] theorem BoundTable.fresh_name (name : String) (n : Nat) : (fresh name n).name = name := rfl

@[simp] theorem BoundTable.fresh_index (name : String) (n : Nat) :
    (fresh name n).label.index = n := rfl

theorem freshAlias_ok_iff {name : String} {a : Sql.TableAlias} :
    freshAlias name n = .ok a n' ↔ { name, index := n } = a ∧ n + 1 = n' := by
  simp [freshAlias]

theorem bindTable_ok_iff {name : String} {t : BoundTable} :
    bindTable name n = .ok t n' ↔ .fresh name n = t ∧ n + 1 = n' := by
  simp only [bindTable, bind_ok_iff, pure_ok_iff, freshAlias_ok_iff]
  constructor
  · rintro ⟨_, _, ⟨rfl, rfl⟩, rfl, rfl⟩
    exact ⟨rfl, rfl⟩
  · rintro ⟨rfl, rfl⟩
    exact ⟨_, _, ⟨rfl, rfl⟩, rfl, rfl⟩

/-! ### Filters -/

/-- Rows are related by the equality of each pair of columns. -/
theorem joinCondition_ok {source target : BoundTable} {name : String} {r : Relationship} {e : Expr}
    (h : joinCondition source target name r = .ok e) :
    e = (r.mapping.map fun pair => Expr.compare .equal (source.column pair.1)
      (target.column pair.2)).foldl .conj .always := by
  unfold joinCondition at h
  split at h
  · cases h
  · cases h
    rw [List.foldl_map]

theorem followPath_nil_ok {c : Context} {table last : BoundTable} {reach reach' : Reach}
    (h : followPath c table [] reach n = .ok (last, reach') n') :
    last = table ∧ reach' = reach ∧ n' = n := by
  simp only [followPath, pure_ok_iff, Prod.mk.injEq] at h
  exact ⟨h.1.1.symm, h.1.2.symm, h.2.symm⟩

theorem followPath_cons_ok {c : Context} {table last : BoundTable} {name : String}
    {path : List String} {reach reach' : Reach}
    (h : followPath c table (name :: path) reach n = .ok (last, reach') n') :
    ∃ r join, c.lookup table.name name = .ok r ∧
      joinCondition table (.fresh r.target n) name r = .ok join ∧
      followPath c (.fresh r.target n) path
        { tables := reach.tables ++ [.fresh r.target n], joins := reach.joins.conj join }
        (n + 1) = .ok (last, reach') n' := by
  simp only [followPath, bind_ok_iff, ofExcept_ok_iff, bindTable_ok_iff] at h
  obtain ⟨r, _, ⟨hr, rfl⟩, _, _, ⟨rfl, rfl⟩, join, _, ⟨hj, rfl⟩, h⟩ := h
  exact ⟨r, join, hr, hj, h⟩

/-- A walk along a path from a table: the tables it binds, one a step, the conditions that join each to
the one before, and the table at its end. -/
inductive Walk (c : Context) :
    BoundTable → List String → Nat → List BoundTable → List Expr → BoundTable → Prop
  | nil {table : BoundTable} {n : Nat} : Walk c table [] n [] [] table
  | cons {table last : BoundTable} {name : String} {path : List String} {n : Nat} {r : Relationship}
      {join : Expr} {tables : List BoundTable} {joins : List Expr}
      (found : c.lookup table.name name = .ok r)
      (joined : joinCondition table (.fresh r.target n) name r = .ok join)
      (rest : Walk c (.fresh r.target n) path (n + 1) tables joins last) :
      Walk c table (name :: path) n (.fresh r.target n :: tables) (join :: joins) last

/-- Following a path adds a walk to what was reached before. -/
theorem followPath_walk {c : Context} {last : BoundTable} {reach' : Reach} :
    ∀ {path : List String} {table : BoundTable} {reach : Reach} {n : Nat},
      followPath c table path reach n = .ok (last, reach') n' →
      ∃ tables joins, Walk c table path n tables joins last ∧ n' = n + tables.length ∧
        reach' = { tables := reach.tables ++ tables, joins := joins.foldl .conj reach.joins }
  | [], _, reach, _, h => by
    obtain ⟨rfl, rfl, rfl⟩ := followPath_nil_ok h
    exact ⟨[], [], .nil, rfl, by simp⟩
  | name :: path, _, reach, n, h => by
    obtain ⟨r, join, hr, hj, h⟩ := followPath_cons_ok h
    obtain ⟨tables, joins, hw, rfl, rfl⟩ := followPath_walk h
    refine ⟨.fresh r.target n :: tables, join :: joins, .cons hr hj hw, ?_, ?_⟩
    · simp only [List.length_cons]
      omega
    · simp

/-- The tables of a walk take the aliases from `n` on, in order. -/
theorem Walk.indices {c : Context} {table last : BoundTable} {path : List String} {n : Nat}
    {tables : List BoundTable} {joins : List Expr} (h : Walk c table path n tables joins last) :
    tables.map (fun t => t.label.index) = List.range' n tables.length := by
  induction h with
  | nil => rfl
  | cons _ _ _ ih => simp [ih, List.range'_succ]

theorem columnAt_ok {c : Context} {table : BoundTable} {column : ColumnPath} {reach reach' : Reach}
    {e : Expr} (h : columnAt c table column reach n = .ok (e, reach') n') :
    ∃ tables joins last, Walk c table column.path n tables joins last ∧ n' = n + tables.length ∧
      reach' = { tables := reach.tables ++ tables, joins := joins.foldl .conj reach.joins } ∧
      e = c.tag "bop_col" (last.column column.name) := by
  simp only [columnAt, bind_ok_iff, ite_ok_iff, throw_ok_iff, pure_ok_iff, Prod.mk.injEq,
    false_and, and_false, exists_false, false_or] at h
  obtain ⟨-, ⟨last, reach''⟩, _, hp, ⟨rfl, rfl⟩, rfl⟩ := h
  obtain ⟨tables, joins, hw, hn, hreach⟩ := followPath_walk hp
  exact ⟨tables, joins, last, hw, hn, hreach, rfl⟩

theorem operandAt_column_ok {c : Context} {table : BoundTable} {name : String} {other : ColumnPath}
    {reach reach' : Reach} {e : Expr}
    (h : operandAt c table name reach (.column other) n = .ok (e, reach') n') :
    ∃ e', columnAt c table other reach n = .ok (e', reach') n' ∧ e = c.tag "bop_val" e' := by
  simp only [operandAt, bind_ok_iff, pure_ok_iff, Prod.mk.injEq] at h
  obtain ⟨⟨e', reach''⟩, _, he, ⟨rfl, rfl⟩, rfl⟩ := h
  exact ⟨e', he, rfl⟩

theorem operandAt_scalar_ok {c : Context} {table : BoundTable} {name : String} {value : Json}
    {reach reach' : Reach} {e : Expr}
    (h : operandAt c table name reach (.scalar value) n = .ok (e, reach') n') :
    ∃ v, scalar name value = .ok v ∧ e = c.tag "bop_val" (.value v) ∧ reach' = reach ∧ n' = n := by
  simp only [operandAt, bind_ok_iff, pure_ok_iff, ofExcept_ok_iff, Prod.mk.injEq] at h
  obtain ⟨v, _, ⟨hv, rfl⟩, ⟨rfl, rfl⟩, rfl⟩ := h
  exact ⟨v, hv, rfl, rfl, rfl⟩

theorem options_ok {c : Context} {column : String} {values : List Json} {items : List Expr}
    (h : options c column values = .ok items) :
    List.Forall₂ (fun value item => ∃ v, scalar column value = .ok v ∧
      item = c.tag "bop_val" (.value v)) values items := by
  refine (Sql.forall₂_of_mapM_ok h).imp fun value item hitem => ?_
  cases hv : scalar column value with
  | error e => simp [hv, bind, Except.bind] at hitem
  | ok v =>
    simp only [hv, bind, Except.bind, pure, Except.pure, Except.ok.injEq] at hitem
    exact ⟨v, rfl, hitem.symm⟩

section Filters

variable {c : Context} {table : BoundTable} {e : Expr}

theorem filterCondition_and_ok {filters : List Filter}
    (h : filterCondition c table (.and filters) n = .ok e n') :
    ∃ es, filterConditions c table filters n = .ok es n' ∧ e = es.foldl .conj .always := by
  simp only [filterCondition, bind_ok_iff, pure_ok_iff] at h
  obtain ⟨es, _, hes, rfl, rfl⟩ := h
  exact ⟨es, hes, rfl⟩

theorem filterCondition_or_ok {filters : List Filter}
    (h : filterCondition c table (.or filters) n = .ok e n') :
    ∃ es, filterConditions c table filters n = .ok es n' ∧ e = disjunction es := by
  simp only [filterCondition, bind_ok_iff, pure_ok_iff] at h
  obtain ⟨es, _, hes, rfl, rfl⟩ := h
  exact ⟨es, hes, rfl⟩

theorem filterCondition_not_ok {filter : Filter}
    (h : filterCondition c table (.not filter) n = .ok e n') :
    ∃ e', filterCondition c table filter n = .ok e' n' ∧ e = .not e' := by
  simp only [filterCondition, bind_ok_iff, pure_ok_iff] at h
  obtain ⟨e', _, he, rfl, rfl⟩ := h
  exact ⟨e', he, rfl⟩

/-- What a filter compares, once the tables at the ends of its two paths are bound: `l` is where the
column is, `r` where the column is that it is compared with. A filter without such a column has an
empty second path. -/
inductive Comparing (c : Context) (l r : BoundTable) :
    Filter → List String → List String → Expr → Prop
  | isNull (column : ColumnPath) :
      Comparing c l r (.unary "is_null" column) column.path []
        (.isNull (c.tag "bop_col" (l.column column.name)))
  | value {operator : String} {column : ColumnPath} {json : Json} {op : Sql.Comparison}
      {v : Sql.Value} (named : comparisonOf operator column.name = .ok op)
      (scalar : scalar column.name json = .ok v) :
      Comparing c l r (.binary operator column (.scalar json)) column.path []
        (.compare op (c.tag "bop_col" (l.column column.name)) (c.tag "bop_val" (.value v)))
  | column {operator : String} {column other : ColumnPath} {op : Sql.Comparison}
      (named : comparisonOf operator column.name = .ok op) :
      Comparing c l r (.binary operator column (.column other)) column.path other.path
        (.compare op (c.tag "bop_col" (l.column column.name))
          (c.tag "bop_val" (c.tag "bop_col" (r.column other.name))))
  | list {column : ColumnPath} {values : List Json} {items : List Expr}
      (scalars : options c column.name values = .ok items) :
      Comparing c l r (.list "in" column values) column.path []
        (if items.isEmpty then .never else .isIn (c.tag "bop_col" (l.column column.name)) items)

/-- A filter that compares walks its two paths, the second after the first, and asks for the existence
of the rows they reach. -/
structure ComparisonRun (c : Context) (table : BoundTable) (filter : Filter) (n n' : Nat)
    (e : Expr) where
  (leftPath rightPath : List String)
  (leftTables rightTables : List BoundTable)
  (leftJoins rightJoins : List Expr)
  (left right : BoundTable)
  comparison : Expr
  leftWalk : Walk c table leftPath n leftTables leftJoins left
  rightWalk : Walk c table rightPath (n + leftTables.length) rightTables rightJoins right
  comparing : Comparing c left right filter leftPath rightPath comparison
  next : n' = n + (leftTables ++ rightTables).length
  result : e = Reach.existence c
    { tables := leftTables ++ rightTables
      joins := (leftJoins ++ rightJoins).foldl .conj .always } comparison

theorem filterCondition_unary_ok {operator : String} {column : ColumnPath}
    (h : filterCondition c table (.unary operator column) n = .ok e n') :
    Nonempty (ComparisonRun c table (.unary operator column) n n' e) := by
  simp only [filterCondition, bind_ok_iff, pure_ok_iff, ofExcept_ok_iff, checkUnaryOperator] at h
  obtain ⟨_, _, ⟨ho, rfl⟩, ⟨e', reach⟩, _, he, rfl, rfl⟩ := h
  obtain ⟨tables, joins, last, hw, rfl, rfl, rfl⟩ := columnAt_ok he
  split at ho
  · subst operator
    exact ⟨⟨_, _, tables, [], joins, [], last, table, _, hw, .nil, .isNull column, by simp, by simp⟩⟩
  · cases ho

theorem filterCondition_binary_ok {operator : String} {column : ColumnPath} {operand : Operand}
    (h : filterCondition c table (.binary operator column operand) n = .ok e n') :
    Nonempty (ComparisonRun c table (.binary operator column operand) n n' e) := by
  simp only [filterCondition, bind_ok_iff, pure_ok_iff, ofExcept_ok_iff] at h
  obtain ⟨op, _, ⟨ho, rfl⟩, ⟨left, reach⟩, m, hl, ⟨right, reach'⟩, _, hr, rfl, rfl⟩ := h
  obtain ⟨tables, joins, last, hw, rfl, rfl, rfl⟩ := columnAt_ok hl
  cases operand with
  | column other =>
    obtain ⟨e', he, rfl⟩ := operandAt_column_ok hr
    obtain ⟨tables', joins', last', hw', rfl, rfl, rfl⟩ := columnAt_ok he
    exact ⟨⟨_, _, tables, tables', joins, joins', last, last', _, hw, hw', .column ho,
      by simp [Nat.add_assoc], by simp⟩⟩
  | scalar json =>
    obtain ⟨v, hv, rfl, rfl, rfl⟩ := operandAt_scalar_ok hr
    exact ⟨⟨_, _, tables, [], joins, [], last, table, _, hw, .nil, .value ho hv, by simp, by simp⟩⟩

theorem filterCondition_list_ok {operator : String} {column : ColumnPath} {values : List Json}
    (h : filterCondition c table (.list operator column values) n = .ok e n') :
    Nonempty (ComparisonRun c table (.list operator column values) n n' e) := by
  simp only [filterCondition, bind_ok_iff, pure_ok_iff, ofExcept_ok_iff, checkListOperator] at h
  obtain ⟨_, _, ⟨ho, rfl⟩, ⟨e', reach⟩, _, he, items, _, ⟨hi, rfl⟩, rfl, rfl⟩ := h
  obtain ⟨tables, joins, last, hw, rfl, rfl, rfl⟩ := columnAt_ok he
  split at ho
  · subst operator
    exact ⟨⟨_, _, tables, [], joins, [], last, table, _, hw, .nil, .list hi, by simp, by simp⟩⟩
  · cases ho

theorem filterConditions_nil_ok {es : List Expr}
    (h : filterConditions c table [] n = .ok es n') : es = [] ∧ n' = n := by
  simp only [filterConditions, pure_ok_iff] at h
  exact ⟨h.1.symm, h.2.symm⟩

theorem filterConditions_cons_ok {filter : Filter} {filters : List Filter} {es : List Expr}
    (h : filterConditions c table (filter :: filters) n = .ok es n') :
    ∃ e es' m, filterCondition c table filter n = .ok e m ∧
      filterConditions c table filters m = .ok es' n' ∧ es = e :: es' := by
  simp only [filterConditions, bind_ok_iff, pure_ok_iff] at h
  obtain ⟨e, m, he, es', _, hes, rfl, rfl⟩ := h
  exact ⟨e, es', m, he, hes, rfl⟩

end Filters

/-! ### Rows of a page -/

/-- The condition of the filter of a query, if it has one. -/
def ownCondition (c : Context) (table : BoundTable) : Option Filter → Compile Expr
  | none   => pure .always
  | some f => filterCondition c table f

/-- The condition that relates a row to its parent row, if it has one. -/
def linkCondition (table : BoundTable) : Option Link → Except CompileError Expr
  | none   => .ok .always
  | some l => joinCondition l.parent table l.name l.relationship

/-- The condition of the filter, and the one that relates the row to its parent row. -/
theorem rowCondition_eq (c : Context) (table : BoundTable) (link : Option Link)
    (filter : Option Filter) :
    rowCondition c table link filter = ownCondition c table filter >>= fun own =>
      ofExcept (linkCondition table link) >>= fun join => pure (own.conj join) := by
  cases filter <;> cases link <;> rfl

theorem rowCondition_ok {c : Context} {table : BoundTable} {link : Option Link}
    {filter : Option Filter} {e : Expr} (h : rowCondition c table link filter n = .ok e n') :
    ∃ own join, ownCondition c table filter n = .ok own n' ∧
      linkCondition table link = .ok join ∧ e = own.conj join := by
  simp only [rowCondition_eq, bind_ok_iff, pure_ok_iff, ofExcept_ok_iff] at h
  obtain ⟨own, m, hown, join, m', ⟨hjoin, rfl⟩, rfl, rfl⟩ := h
  exact ⟨own, join, hown, hjoin, rfl⟩

/-- The objects of the rows of a page that has no order, built as the rows are read. -/
def directObjects (c : Context) (table : BoundTable) (page : Page) (condition object : Expr) :
    Select :=
  { Select.ofItems [("j", object)] with
    source := some table.source
    condition := whereCondition c condition
    limit := page.limit }

/-- The objects of the rows of an ordered page, built over the select of the page. -/
def orderedObjects (c : Context) (table ordered : BoundTable) (page : Page)
    (condition object : Expr) : Select :=
  { Select.ofItems [("j", object)] with
    source := some (.select (pageRows c table page condition) ordered.label) }

/-- The array of the objects that a select yields. -/
def arrayOf (objects : Select) (rows : Sql.TableAlias) : Select :=
  { Select.ofItems [("array", .call .jsonGroupArray [.asJson (.column (.derived (.aliased rows) "j"))])]
    with source := some (.select objects rows) }

/-- The objects of a page: which of the two plans is taken, and what they are. -/
inductive ObjectsRun (c : Context) (name : String) (page : Page)
    (object : BoundTable → Compile Expr) (n : Nat) (condition : Expr) :
    Nat → Select → Nat → Prop
  | direct {m k : Nat} {e : Expr} (plain : page.orderBy = [])
      (run : object (.fresh name n) m = .ok e k) :
      ObjectsRun c name page object n condition m
        (directObjects c (.fresh name n) page condition e) k
  | ordered {m k : Nat} {e : Expr} (sorted : page.orderBy ≠ [])
      (run : object (.fresh name m) (m + 1) = .ok e k) :
      ObjectsRun c name page object n condition m
        (orderedObjects c (.fresh name n) (.fresh name m) page condition e) k

theorem rowsArray_ok {c : Context} {name : String} {link : Option Link} {page : Page}
    {object : BoundTable → Compile Expr} {e : Expr}
    (h : rowsArray c name link page object n = .ok e n') :
    ∃ condition m objects k, rowCondition c (.fresh name n) link page.filter (n + 1) = .ok condition m ∧
      ObjectsRun c name page object n condition m objects k ∧
      e = c.tag "array_relationship" (.subselect (arrayOf objects { name := "rows", index := k })) ∧
      n' = k + 1 := by
  simp only [rowsArray, bind_ok_iff, ite_ok_iff, pure_ok_iff, bindTable_ok_iff,
    freshAlias_ok_iff] at h
  obtain ⟨_, _, ⟨rfl, rfl⟩, condition, m, hc, h⟩ := h
  rcases h with ⟨ho, o, k, hk, _, _, ⟨rfl, rfl⟩, _, _, ⟨rfl, rfl⟩, rfl, rfl⟩ |
    ⟨ho, _, _, ⟨rfl, rfl⟩, o, k, hk, _, _, ⟨rfl, rfl⟩, _, _, ⟨rfl, rfl⟩, rfl, rfl⟩
  · exact ⟨condition, m, _, k, hc, .direct (List.isEmpty_iff.1 ho) hk, rfl, rfl⟩
  · exact ⟨condition, m, _, k, hc, .ordered (fun h => ho (List.isEmpty_iff.2 h)) hk, rfl, rfl⟩

/-- The select of an object with aggregates over the rows of a page. -/
def summaryOf (c : Context) (table rows : BoundTable) (page : Page) (condition : Expr)
    (entries : List (String × Expr)) : Select :=
  { Select.ofItems [("aggregates", c.tag "aggregates" (.object entries))] with
    source := some (.select (pageRows c table page condition) rows.label) }

/-- An aggregate over the rows of a table is a count or a function of a column. -/
inductive AggregateRun (table : BoundTable) : Aggregate → Expr → Prop
  | rows : AggregateRun table .rowCount (.count .rows)
  | values (column : String) :
      AggregateRun table (.columnCount column false)
        (.count (.values (.stored (.aliased table.label) column)))
  | distinct (column : String) :
      AggregateRun table (.columnCount column true)
        (.count (.distinct (.stored (.aliased table.label) column)))
  | single {column function : String} {f : Sql.Function}
      (named : aggregateFunction function column = .ok f) :
      AggregateRun table (.single column function) (.call f [table.column column])

theorem aggregate_ok {table : BoundTable} {a : Aggregate} {e : Expr} (h : aggregate table a = .ok e) :
    AggregateRun table a e := by
  cases a with
  | rowCount =>
    cases h
    exact .rows
  | columnCount column distinct =>
    cases distinct <;> cases h
    · exact .values column
    · exact .distinct column
  | single column function =>
    cases hf : aggregateFunction function column with
    | error e => simp [aggregate, hf, bind, Except.bind] at h
    | ok f =>
      simp only [aggregate, hf, bind, Except.bind, pure, Except.pure, Except.ok.injEq] at h
      subst h
      exact .single hf

/-- The aggregates of a query, each under its key. -/
theorem aggregateEntries_ok {table : BoundTable} {aggregates : List (String × Aggregate)}
    {entries : List (String × Expr)}
    (h : (aggregates.mapM fun ((key, a) : String × Aggregate) =>
      (do return (key, ← aggregate table a) : Except CompileError (String × Expr))) = .ok entries) :
    List.Forall₂ (fun a e => e.1 = a.1 ∧ AggregateRun table a.2 e.2) aggregates entries := by
  refine (Sql.forall₂_of_mapM_ok h).imp fun a e hae => ?_
  cases ha : aggregate table a.2 with
  | error err => simp [ha, bind, Except.bind] at hae
  | ok e' =>
    simp only [ha, bind, Except.bind, pure, Except.pure, Except.ok.injEq] at hae
    subst hae
    exact ⟨rfl, aggregate_ok ha⟩

theorem aggregatesSelect_ok {c : Context} {name : String} {link : Option Link} {page : Page}
    {aggregates : List (String × Aggregate)} {s : Select}
    (h : aggregatesSelect c name link page aggregates n = .ok s n') :
    ∃ condition m entries, rowCondition c (.fresh name n) link page.filter (n + 1) = .ok condition m ∧
      List.Forall₂ (fun a e => e.1 = a.1 ∧ AggregateRun (.fresh name m) a.2 e.2) aggregates entries ∧
      s = summaryOf c (.fresh name n) (.fresh name m) page condition entries ∧ n' = m + 1 := by
  simp only [aggregatesSelect, bind_ok_iff, pure_ok_iff, bindTable_ok_iff, ofExcept_ok_iff] at h
  obtain ⟨_, _, ⟨rfl, rfl⟩, condition, m, hc, _, _, ⟨rfl, rfl⟩, entries, _, ⟨he, rfl⟩, rfl, rfl⟩ := h
  exact ⟨condition, m, entries, hc, aggregateEntries_ok he, rfl, rfl⟩

/-- The select of the object of the first row that is related to a parent row. -/
def objectOf (c : Context) (table : BoundTable) (condition object : Expr) : Select :=
  { Select.ofItems [("object", .object [("rows", .call .jsonArray [object])])] with
    source := some table.source
    condition := whereCondition c condition }

theorem relatedObject_ok {c : Context} {link : Link} {filter : Option Filter}
    {object : BoundTable → Compile Expr} {e : Expr}
    (h : relatedObject c link filter object n = .ok e n') :
    ∃ condition m o, rowCondition c (.fresh link.relationship.target n) (some link) filter (n + 1) =
        .ok condition m ∧
      object (.fresh link.relationship.target n) m = .ok o n' ∧
      e = c.tag "object_relationship"
        (.subselect (objectOf c (.fresh link.relationship.target n) condition o)) := by
  simp only [relatedObject, bind_ok_iff, pure_ok_iff, bindTable_ok_iff] at h
  obtain ⟨_, _, ⟨rfl, rfl⟩, condition, m, hc, o, _, ho, rfl, rfl⟩ := h
  exact ⟨condition, m, o, hc, ho, rfl⟩

/-! ### Queries and fields -/

/-- The page of a query. -/
def pageOf (q : Query) : Page :=
  { filter := q.filter, orderBy := q.orderBy.getD []
    limit := { limit := q.limit, offset := q.offset } }

section Queries

variable {c : Context} {depth : Nat} {name : String} {link : Option Link} {table : BoundTable}
  {e : Expr}

theorem arrayQuery_rows_ok {q : Query} (hq : q.aggregates = none)
    (h : arrayQuery c depth name link q n = .ok e n') :
    rowsArray c name link (pageOf q) (fun t => fieldsObject c depth t q.fields) n = .ok e n' := by
  cases q
  subst hq
  exact h

theorem arrayQuery_aggregates_ok {q : Query} {aggregates : List (String × Aggregate)}
    (hq : q.aggregates = some aggregates) (h : arrayQuery c depth name link q n = .ok e n') :
    ∃ s m, aggregatesSelect c name link (pageOf q) aggregates n = .ok s m ∧
      ((q.fields = none ∧ e = .object [("aggregates", .asJson (.subselect s))] ∧ n' = m) ∨
        ∃ rows, q.fields ≠ none ∧
          rowsArray c name link (pageOf q) (fun t => fieldsObject c depth t q.fields) m =
            .ok rows n' ∧
          e = .object [("aggregates", .asJson (.subselect s)), ("rows", rows.asJson)]) := by
  obtain ⟨fields, _, filter, orderBy, limit, offset⟩ := q
  subst hq
  simp only [arrayQuery, bind_ok_iff, ite_ok_iff, pure_ok_iff] at h
  obtain ⟨s, m, hs, ⟨hf, rfl, rfl⟩ | ⟨hf, rows, _, hr, rfl, rfl⟩⟩ := h
  · exact ⟨s, m, hs, .inl ⟨Option.isNone_iff_eq_none.1 hf, rfl, rfl⟩⟩
  · exact ⟨s, m, hs, .inr ⟨rows, fun h => hf (Option.isNone_iff_eq_none.2 h), hr, rfl⟩⟩

theorem objectQuery_ok {link : Link} {q : Query} (h : objectQuery c depth link q n = .ok e n') :
    q.aggregates = none ∧
      relatedObject c link q.filter (fun t => fieldsObject c depth t q.fields) n = .ok e n' := by
  obtain ⟨fields, aggregates, filter, orderBy, limit, offset⟩ := q
  simp only [objectQuery, bind_ok_iff, ite_ok_iff, throw_ok_iff, false_and, and_false,
    exists_false, false_or] at h
  exact ⟨by simpa using h.1, h.2⟩

theorem fieldsObject_none_ok (h : fieldsObject c depth table none n = .ok e n') :
    e = c.tag "json_object" (.object []) ∧ n' = n := by
  simp only [fieldsObject, pure_ok_iff] at h
  exact ⟨h.1.symm, h.2.symm⟩

theorem fieldsObject_some_ok {fields : List (String × Field)}
    (h : fieldsObject c depth table (some fields) n = .ok e n') :
    ∃ entries, fieldEntries c depth table fields n = .ok entries n' ∧
      e = c.tag "json_object" (.object entries) := by
  simp only [fieldsObject, bind_ok_iff, pure_ok_iff] at h
  obtain ⟨entries, _, he, rfl, rfl⟩ := h
  exact ⟨entries, he, rfl⟩

theorem fieldEntries_nil_ok {entries : List (String × Expr)}
    (h : fieldEntries c depth table [] n = .ok entries n') : entries = [] ∧ n' = n := by
  simp only [fieldEntries, pure_ok_iff] at h
  exact ⟨h.1.symm, h.2.symm⟩

theorem fieldEntries_cons_ok {key : String} {field : Field} {fields : List (String × Field)}
    {entries : List (String × Expr)}
    (h : fieldEntries c depth table ((key, field) :: fields) n = .ok entries n') :
    ∃ e m rest, fieldValue c depth table field n = .ok e m ∧
      fieldEntries c depth table fields m = .ok rest n' ∧ entries = (key, e) :: rest := by
  simp only [fieldEntries, bind_ok_iff, pure_ok_iff] at h
  obtain ⟨e, m, he, rest, _, hr, rfl, rfl⟩ := h
  exact ⟨e, m, rest, he, hr, rfl⟩

theorem fieldValue_column_ok {column : String}
    (h : fieldValue c depth table (.column column) n = .ok e n') :
    e = table.column column ∧ n' = n := by
  simp only [fieldValue, pure_ok_iff] at h
  exact ⟨h.1.symm, h.2.symm⟩

theorem fieldValue_relationship_ok {q : Query}
    (h : fieldValue c depth table (.relationship name q) n = .ok e n') :
    ∃ r e', c.lookup table.name name = .ok r ∧ e = (c.tag "relationship" e').asJson ∧
      ((r.kind = .object ∧
          objectQuery c (depth + 1) { parent := table, name, relationship := r } q n = .ok e' n') ∨
        (r.kind = .array ∧
          arrayQuery c (depth + 1) r.target (some { parent := table, name, relationship := r }) q n =
            .ok e' n')) := by
  simp only [fieldValue, bind_ok_iff, ite_ok_iff, throw_ok_iff, ofExcept_ok_iff, false_and,
    and_false, exists_false, false_or] at h
  obtain ⟨-, r, _, ⟨hr, rfl⟩, h⟩ := h
  cases hk : r.kind with
  | object =>
    simp only [hk, bind_ok_iff, pure_ok_iff] at h
    obtain ⟨e', _, he, rfl, rfl⟩ := h
    exact ⟨r, e', hr, rfl, .inl ⟨hk, he⟩⟩
  | array =>
    simp only [hk, bind_ok_iff, pure_ok_iff] at h
    obtain ⟨e', _, he, rfl, rfl⟩ := h
    exact ⟨r, e', hr, rfl, .inr ⟨hk, he⟩⟩

end Queries

end Compile

/-- A request compiles when its query does, from the first alias on. -/
theorem Request.compile_ok {settings : QuerySettings} {r : Request} {plan : Plan}
    (h : r.compile settings = .ok plan) :
    ∃ e n, Compile.arrayQuery { relationships := r.relationships, settings } 0 r.table none
        r.query 0 = .ok e n ∧
      plan.select = .ofItems [("data", Compile.Context.tag
        { relationships := r.relationships, settings } "query" e)] ∧
      plan.resultColumn = "data" := by
  simp only [Request.compile, EStateM.run] at h
  cases hr : Compile.arrayQuery { relationships := r.relationships, settings } 0 r.table none
    r.query 0 with
  | ok e n =>
    rw [hr] at h
    cases h
    exact ⟨e, n, rfl, rfl, rfl⟩
  | error e n =>
    rw [hr] at h
    cases h

/-- The plan of a request whose query compiles. -/
theorem Request.compile_of_ok {settings : QuerySettings} {r : Request} {e : Sql.Expr} {n : Nat}
    (h : Compile.arrayQuery { relationships := r.relationships, settings } 0 r.table none
      r.query 0 = .ok e n) :
    r.compile settings = .ok
      { rootTable := r.table
        select := .ofItems [("data", Compile.Context.tag
          { relationships := r.relationships, settings } "query" e)]
        resultColumn := "data" } := by
  simp only [Request.compile, EStateM.run]
  rw [h]

theorem Request.compile_of_error {settings : QuerySettings} {r : Request} {e : CompileError}
    {n : Nat} (h : Compile.arrayQuery { relationships := r.relationships, settings } 0 r.table none
      r.query 0 = .error e n) : r.compile settings = .error e := by
  simp only [Request.compile, EStateM.run]
  rw [h]

end DataAgent
