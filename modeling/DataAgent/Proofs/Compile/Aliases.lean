import DataAgent.Proofs.Compile.Runs
import DataAgent.Proofs.Request.Meaning
import DataAgent.Proofs.Sql.Scope

/-!
# Proofs — Compile — Aliases

The aliases of a compiled request. Every run of the compiler that takes the alias counter from `n` to
`n'` gives an expression that binds the indices from `n` up to `n'`, each once (`Fills`), although
aliases are drawn in one order and stand in another. And every column of it is in scope wherever
the table it is compiled for is (`Expr.Scoped`).
-/

namespace DataAgent

namespace Compile

open Sql

/-! ### Indices -/

/-- The aliases have the indices from `n` up to `n'`, each once. -/
structure Fills (n n' : Nat) (labels : List TableAlias) : Prop where
  le : n ≤ n'
  perm : (labels.map TableAlias.index).Perm (List.range' n (n' - n))

namespace Fills

theorem nil (n : Nat) : Fills n n [] := ⟨Nat.le_refl n, by simp⟩

theorem append {n m k : Nat} {ls ls' : List TableAlias} (h : Fills n m ls) (h' : Fills m k ls') :
    Fills n k (ls ++ ls') := by
  refine ⟨Nat.le_trans h.le h'.le, ?_⟩
  have hn := h.le
  have hm := h'.le
  have hsplit : List.range' n (k - n) = List.range' n (m - n) ++ List.range' m (k - m) := by
    have hjoin := List.range'_append_1 (s := n) (m := m - n) (n := k - m)
    rwa [Nat.add_sub_cancel' hn, Nat.add_comm, Nat.sub_add_sub_cancel hm hn, eq_comm] at hjoin
  rw [List.map_append, hsplit]
  exact h.perm.append h'.perm

theorem single {n : Nat} {label : TableAlias} (h : label.index = n) : Fills n (n + 1) [label] :=
  ⟨Nat.le_succ n, by simp [h]⟩

/-- The order in which aliases stand does not matter. -/
theorem reorder {n n' : Nat} {ls ls' : List TableAlias} (h : Fills n n' ls) (hp : ls'.Perm ls) :
    Fills n n' ls' :=
  ⟨h.le, (hp.map _).trans h.perm⟩

end Fills

/-! ### Filters -/

@[simp] theorem Context.aliases_tag (c : Context) (rule : String) (e : Expr) :
    (c.tag rule e).aliases = e.aliases := by
  unfold Context.tag
  split <;> simp [Expr.aliases]

@[simp] theorem aliases_whereCondition (c : Context) (e : Expr) :
    (whereCondition c e).aliases = e.aliases := by
  unfold whereCondition
  split <;> simp

theorem listAliases_eq_nil {es : List Expr} (h : ∀ e ∈ es, e.aliases = []) : listAliases es = [] := by
  induction es with
  | nil => rfl
  | cons e es ih => rw [listAliases, h e (by simp), ih fun e he => h e (by simp [he])]; rfl

/-- The condition that relates two rows binds nothing. -/
theorem aliases_joinCondition {source target : BoundTable} {name : String} {r : Relationship}
    {e : Expr} (h : joinCondition source target name r = .ok e) : e.aliases = [] := by
  rw [joinCondition_ok h, Expr.aliases_foldl_conj]
  refine listAliases_eq_nil fun e he => ?_
  obtain ⟨pair, -, rfl⟩ := List.mem_map.1 he
  rfl

theorem Walk.aliases_joins {c : Context} {table last : BoundTable} {path : List String} {n : Nat}
    {tables : List BoundTable} {joins : List Expr} (h : Walk c table path n tables joins last) :
    ∀ e ∈ joins, e.aliases = [] := by
  induction h with
  | nil => simp
  | cons _ hj _ ih =>
    intro e he
    rcases List.mem_cons.1 he with rfl | he
    · exact aliases_joinCondition hj
    · exact ih e he

theorem aliases_options {c : Context} {column : String} {values : List Json} {items : List Expr}
    (h : options c column values = .ok items) : listAliases items = [] := by
  replace h := options_ok h
  induction h with
  | nil => rfl
  | cons hitem _ ih =>
    obtain ⟨v, -, rfl⟩ := hitem
    simp [listAliases, Expr.aliases, ih]

theorem Comparing.aliases {c : Context} {l r : BoundTable} {filter : Filter}
    {left right : List String} {e : Expr} (h : Comparing c l r filter left right e) :
    e.aliases = [] := by
  cases h with
  | isNull column => simp [Expr.aliases, BoundTable.column]
  | value _ _ => simp [Expr.aliases, BoundTable.column]
  | column _ => simp [Expr.aliases, BoundTable.column]
  | list hs =>
    split
    · rfl
    · simp [Expr.aliases, BoundTable.column, aliases_options hs]

/-- The existence of rows binds the tables it reaches. -/
theorem Reach.aliases_existence (c : Context) {reach : Reach} {comparison : Expr}
    (hj : reach.joins.aliases = []) (hc : comparison.aliases = []) :
    (reach.existence c comparison).aliases = reach.tables.map BoundTable.label := by
  unfold Reach.existence
  split
  · rename_i h
    rw [h, hc]
    rfl
  · rename_i first others h
    simp [h, Expr.aliases, Select.aliases, sourceAliases, BoundTable.source, Source.aliases,
      SelectList.aliases, orderAliases, Expr.aliases_conj, hj, hc, Function.comp_def,
      BoundTable.join]

theorem ComparisonRun.fills {c : Context} {table : BoundTable} {filter : Filter} {n n' : Nat}
    {e : Expr} (h : ComparisonRun c table filter n n' e) : Fills n n' e.aliases := by
  have hn := h.next
  have hjoins : (((h.leftJoins ++ h.rightJoins).foldl .conj .always) : Expr).aliases = [] := by
    rw [Expr.aliases_foldl_conj]
    refine listAliases_eq_nil fun e he => ?_
    rcases List.mem_append.1 he with he | he
    · exact h.leftWalk.aliases_joins e he
    · exact h.rightWalk.aliases_joins e he
  have hindices : (h.leftTables ++ h.rightTables).map (fun t => t.label.index) =
      List.range' n (h.leftTables ++ h.rightTables).length := by
    rw [List.map_append, h.leftWalk.indices, h.rightWalk.indices, List.length_append,
      List.range'_append_1]
  rw [h.result, Reach.aliases_existence c hjoins h.comparing.aliases]
  refine ⟨by omega, ?_⟩
  rw [List.map_map, show n' - n = (h.leftTables ++ h.rightTables).length by omega, ← hindices]
  exact List.Perm.refl _

theorem aliases_disjunction (es : List Expr) : (disjunction es).aliases = listAliases es := by
  cases es with
  | nil => rfl
  | cons e es => exact Expr.aliases_foldl_or es e

mutual

theorem filterCondition_fills {c : Context} {table : BoundTable} :
    ∀ (filter : Filter) {n n' : Nat} {e : Expr},
      filterCondition c table filter n = .ok e n' → Fills n n' e.aliases
  | .and filters, _, _, _, h => by
    obtain ⟨es, hes, rfl⟩ := filterCondition_and_ok h
    rw [Expr.aliases_foldl_conj]
    exact filterConditions_fills filters hes
  | .or filters, _, _, _, h => by
    obtain ⟨es, hes, rfl⟩ := filterCondition_or_ok h
    rw [aliases_disjunction]
    exact filterConditions_fills filters hes
  | .not filter, _, _, _, h => by
    obtain ⟨e, he, rfl⟩ := filterCondition_not_ok h
    rw [Expr.aliases]
    exact filterCondition_fills filter he
  | .unary _ _, _, _, _, h => by
    obtain ⟨run⟩ := filterCondition_unary_ok h
    exact run.fills
  | .binary _ _ _, _, _, _, h => by
    obtain ⟨run⟩ := filterCondition_binary_ok h
    exact run.fills
  | .list _ _ _, _, _, _, h => by
    obtain ⟨run⟩ := filterCondition_list_ok h
    exact run.fills

theorem filterConditions_fills {c : Context} {table : BoundTable} :
    ∀ (filters : List Filter) {n n' : Nat} {es : List Expr},
      filterConditions c table filters n = .ok es n' → Fills n n' (listAliases es)
  | [], _, _, _, h => by
    obtain ⟨rfl, rfl⟩ := filterConditions_nil_ok h
    exact .nil _
  | filter :: filters, _, _, _, h => by
    obtain ⟨e, es, m, he, hes, rfl⟩ := filterConditions_cons_ok h
    exact (filterCondition_fills filter he).append (filterConditions_fills filters hes)

end

/-! ### Queries -/

theorem rowCondition_fills {c : Context} {table : BoundTable} {link : Option Link}
    {filter : Option Filter} {n n' : Nat} {e : Expr}
    (h : rowCondition c table link filter n = .ok e n') : Fills n n' e.aliases := by
  obtain ⟨own, join, hown, hjoin, rfl⟩ := rowCondition_ok h
  have hj : join.aliases = [] := by
    cases link with
    | none =>
      cases hjoin
      rfl
    | some l => exact aliases_joinCondition hjoin
  rw [Expr.aliases_conj, hj, List.append_nil]
  cases filter with
  | none =>
    obtain ⟨rfl, rfl⟩ := pure_ok_iff.1 hown
    exact .nil _
  | some f => exact filterCondition_fills f hown

@[simp] theorem aliases_orderColumns (table : BoundTable) (orderBy : List OrderBy) :
    orderAliases (orderColumns table orderBy) = [] := by
  induction orderBy with
  | nil => rfl
  | cons o orderBy ih => exact ih

section Selects

attribute [local simp] Expr.aliases listAliases entryAliases orderAliases SelectList.aliases
  Source.aliases sourceAliases Select.aliases Select.ofItems BoundTable.source

@[simp] theorem aliases_pageRows (c : Context) (table : BoundTable) (page : Page) (condition : Expr) :
    (pageRows c table page condition).aliases = table.label :: condition.aliases := by
  simp [pageRows]

@[simp] theorem aliases_directObjects (c : Context) (table : BoundTable) (page : Page)
    (condition object : Expr) :
    (directObjects c table page condition object).aliases =
      table.label :: (object.aliases ++ condition.aliases) := by
  simp [directObjects]

@[simp] theorem aliases_orderedObjects (c : Context) (table ordered : BoundTable) (page : Page)
    (condition object : Expr) :
    (orderedObjects c table ordered page condition object).aliases =
      ordered.label :: table.label :: (condition.aliases ++ object.aliases) := by
  simp [orderedObjects, Expr.always]

@[simp] theorem aliases_arrayOf (objects : Select) (rows : TableAlias) :
    (arrayOf objects rows).aliases = rows :: objects.aliases := by
  simp [arrayOf, Expr.always, Expr.asJson]

@[simp] theorem aliases_objectOf (c : Context) (table : BoundTable) (condition object : Expr) :
    (objectOf c table condition object).aliases =
      table.label :: (object.aliases ++ condition.aliases) := by
  simp [objectOf]

@[simp] theorem aliases_summaryOf (c : Context) (table rows : BoundTable) (page : Page)
    (condition : Expr) (entries : List (String × Expr)) :
    (summaryOf c table rows page condition entries).aliases =
      rows.label :: table.label :: (condition.aliases ++ entryAliases entries) := by
  simp [summaryOf, Expr.always]

end Selects

theorem rowsArray_fills {c : Context} {name : String} {link : Option Link} {page : Page}
    {object : BoundTable → Compile Expr} {n n' : Nat} {e : Expr}
    (hobject : ∀ {t n n' e}, object t n = .ok e n' → Fills n n' e.aliases)
    (h : rowsArray c name link page object n = .ok e n') : Fills n n' e.aliases := by
  obtain ⟨condition, m, objects, k, hc, hobjects, rfl, rfl⟩ := rowsArray_ok h
  have htable : Fills n (n + 1) [(BoundTable.fresh name n).label] := .single rfl
  have hrows : Fills k (k + 1) [({ name := "rows", index := k } : TableAlias)] := .single rfl
  have hcond := rowCondition_fills hc
  cases hobjects with
  | direct _ run =>
    refine (((htable.append hcond).append (hobject run)).append hrows).reorder ?_
    rw [List.perm_iff_count]
    intro a
    simp only [Context.aliases_tag, Expr.aliases, aliases_arrayOf, aliases_directObjects,
      List.count_append, List.count_cons, List.count_nil]
    omega
  | ordered _ run =>
    have hordered : Fills m (m + 1) [(BoundTable.fresh name m).label] := .single rfl
    refine ((((htable.append hcond).append hordered).append (hobject run)).append hrows).reorder ?_
    rw [List.perm_iff_count]
    intro a
    simp only [Context.aliases_tag, Expr.aliases, aliases_arrayOf, aliases_orderedObjects,
      List.count_append, List.count_cons, List.count_nil]
    omega

theorem AggregateRun.aliases {table : BoundTable} {a : Aggregate} {e : Expr}
    (h : AggregateRun table a e) : e.aliases = [] := by
  cases h <;> rfl

theorem aggregatesSelect_fills {c : Context} {name : String} {link : Option Link} {page : Page}
    {aggregates : List (String × Aggregate)} {n n' : Nat} {s : Select}
    (h : aggregatesSelect c name link page aggregates n = .ok s n') : Fills n n' s.aliases := by
  obtain ⟨condition, m, entries, hc, hentries, rfl, rfl⟩ := aggregatesSelect_ok h
  have hnone : entryAliases entries = [] := by
    clear h
    induction hentries with
    | nil => rfl
    | cons ha _ ih => rw [entryAliases, ha.2.aliases, ih]; rfl
  have htable : Fills n (n + 1) [(BoundTable.fresh name n).label] := .single rfl
  have hrows : Fills m (m + 1) [(BoundTable.fresh name m).label] := .single rfl
  refine ((htable.append (rowCondition_fills hc)).append hrows).reorder ?_
  rw [List.perm_iff_count]
  intro a
  simp only [aliases_summaryOf, hnone, List.append_nil, List.count_append, List.count_cons,
    List.count_nil]
  omega

theorem relatedObject_fills {c : Context} {link : Link} {filter : Option Filter}
    {object : BoundTable → Compile Expr} {n n' : Nat} {e : Expr}
    (hobject : ∀ {t n n' e}, object t n = .ok e n' → Fills n n' e.aliases)
    (h : relatedObject c link filter object n = .ok e n') : Fills n n' e.aliases := by
  obtain ⟨condition, m, o, hc, ho, rfl⟩ := relatedObject_ok h
  have htable : Fills n (n + 1) [(BoundTable.fresh link.relationship.target n).label] := .single rfl
  refine ((htable.append (rowCondition_fills hc)).append (hobject ho)).reorder ?_
  rw [List.perm_iff_count]
  intro a
  simp only [Context.aliases_tag, Expr.aliases, aliases_objectOf, List.count_append, List.count_cons,
    List.count_nil]
  omega

@[simp] theorem aliases_asJson (e : Expr) : e.asJson.aliases = e.aliases := by
  simp [Expr.asJson, Expr.aliases, listAliases]

mutual

theorem arrayQuery_fills {c : Context} :
    ∀ (q : Query) {depth : Nat} {name : String} {link : Option Link} {n n' : Nat} {e : Expr},
      arrayQuery c depth name link q n = .ok e n' → Fills n n' e.aliases
  | ⟨fields, none, _, _, _, _⟩, _, _, _, _, _, _, h =>
    rowsArray_fills (fieldsObject_fills fields) (arrayQuery_rows_ok rfl h)
  | ⟨fields, some aggregates, _, _, _, _⟩, _, _, _, n, n', _, h => by
    obtain ⟨s, m, hs, ⟨-, rfl, rfl⟩ | ⟨rows, -, hrows, rfl⟩⟩ := arrayQuery_aggregates_ok rfl h
    · simpa [Expr.aliases, entryAliases] using aggregatesSelect_fills hs
    · have hr := rowsArray_fills (fieldsObject_fills fields) hrows
      simpa [Expr.aliases, entryAliases] using (aggregatesSelect_fills hs).append hr

theorem objectQuery_fills {c : Context} :
    ∀ (q : Query) {depth : Nat} {link : Link} {n n' : Nat} {e : Expr},
      objectQuery c depth link q n = .ok e n' → Fills n n' e.aliases
  | ⟨fields, _, _, _, _, _⟩, _, _, _, _, _, h =>
    relatedObject_fills (fieldsObject_fills fields) (objectQuery_ok h).2

theorem fieldsObject_fills {c : Context} {depth : Nat} :
    ∀ (fields : Option (List (String × Field))) {table : BoundTable} {n n' : Nat} {e : Expr},
      fieldsObject c depth table fields n = .ok e n' → Fills n n' e.aliases
  | none, _, _, _, _, h => by
    obtain ⟨rfl, rfl⟩ := fieldsObject_none_ok h
    simpa [Expr.aliases, entryAliases] using Fills.nil _
  | some fields, _, _, _, _, h => by
    obtain ⟨entries, hentries, rfl⟩ := fieldsObject_some_ok h
    simpa [Expr.aliases] using fieldEntries_fills fields hentries

theorem fieldEntries_fills {c : Context} {depth : Nat} :
    ∀ (fields : List (String × Field)) {table : BoundTable} {n n' : Nat}
      {entries : List (String × Expr)},
      fieldEntries c depth table fields n = .ok entries n' → Fills n n' (entryAliases entries)
  | [], _, _, _, _, h => by
    obtain ⟨rfl, rfl⟩ := fieldEntries_nil_ok h
    exact .nil _
  | (_, field) :: fields, _, _, _, _, h => by
    obtain ⟨e, m, rest, he, hrest, rfl⟩ := fieldEntries_cons_ok h
    exact (fieldValue_fills field he).append (fieldEntries_fills fields hrest)

theorem fieldValue_fills {c : Context} {depth : Nat} :
    ∀ (field : Field) {table : BoundTable} {n n' : Nat} {e : Expr},
      fieldValue c depth table field n = .ok e n' → Fills n n' e.aliases
  | .column _, _, _, _, _, h => by
    obtain ⟨rfl, rfl⟩ := fieldValue_column_ok h
    exact .nil _
  | .relationship _ q, _, _, _, _, h => by
    obtain ⟨r, e, -, rfl, ⟨-, he⟩ | ⟨-, he⟩⟩ := fieldValue_relationship_ok h
    · simpa using objectQuery_fills q he
    · simpa using arrayQuery_fills q he

end

/-! ### Values bound to aliases -/

section Bindings

variable {α : Type} {outer : List (TableAlias × α)} {label : TableAlias}

theorem lookup_cons_self (label : TableAlias) (value : α) (outer : List (TableAlias × α)) :
    ((label, value) :: outer).lookup label = some value := by
  simp

theorem lookup_cons_of_index_ne {other : TableAlias} (value : α) (h : label.index ≠ other.index) :
    ((other, value) :: outer).lookup label = outer.lookup label := by
  have hne : (label == other) = false := beq_false_of_ne fun heq => h (by rw [heq])
  rw [List.lookup_cons, hne]

/-- Each value bound to the alias of its table. -/
def bindAll (tables : List BoundTable) (values : List α) : List (TableAlias × α) :=
  List.zipWith (fun t value => (t.label, value)) tables values

theorem lookup_bindAll_of_notMem :
    ∀ {tables : List BoundTable} (values : List α), label ∉ tables.map BoundTable.label →
      (bindAll tables values ++ outer).lookup label = outer.lookup label
  | [], _, _ => rfl
  | _ :: _, [], _ => rfl
  | t :: tables, value :: values, h => by
    simp only [List.map_cons, List.mem_cons, not_or] at h
    have hne : (label == t.label) = false := beq_false_of_ne h.1
    simp only [bindAll, List.zipWith_cons_cons, List.cons_append, List.lookup_cons, hne]
    exact lookup_bindAll_of_notMem values h.2

/-- Under different aliases each alias has its own value. -/
theorem lookup_bindAll (outer : List (TableAlias × α)) {P : BoundTable → α → Prop}
    {tables : List BoundTable} {values : List α} (hvalues : List.Forall₂ P tables values)
    (hnodup : (tables.map BoundTable.label).Nodup) :
    List.Forall₂ (fun t value => (bindAll tables values ++ outer).lookup t.label = some value ∧
      P t value) tables values := by
  induction hvalues with
  | nil => exact .nil
  | @cons t value tables values hvalue _ ih =>
    rw [List.map_cons, List.nodup_cons] at hnodup
    refine .cons ⟨by simp [bindAll], hvalue⟩ ?_
    -- the first alias is none of the later ones, so it hides no later value
    have hlater : ∀ t' ∈ tables, (t'.label == t.label) = false := by
      intro t' ht'
      exact beq_false_of_ne fun h => hnodup.1 (h ▸ List.mem_map_of_mem ht')
    refine ((List.forall₂_and_left ..).2 ⟨hlater, ih hnodup.2⟩).imp fun t' value' h => ?_
    simp only [bindAll, List.zipWith_cons_cons, List.cons_append, List.lookup_cons, h.1]
    exact h.2

end Bindings

namespace ComparisonRun

variable {c : Context} {table : BoundTable} {filter : Filter} {n n' : Nat} {e : Expr}

/-- The tables that a comparison reaches, those of the left path first. -/
def tables (run : ComparisonRun c table filter n n' e) : List BoundTable :=
  run.leftTables ++ run.rightTables

theorem indices (run : ComparisonRun c table filter n n' e) :
    run.tables.map (fun t => t.label.index) = List.range' n (n' - n) := by
  rw [tables, List.map_append, run.leftWalk.indices, run.rightWalk.indices, List.range'_append_1,
    ← List.length_append, Nat.sub_eq_of_eq_add' run.next]

/-- The aliases that a comparison binds are different. -/
theorem nodup (run : ComparisonRun c table filter n n' e) :
    (run.tables.map BoundTable.label).Nodup := by
  refine List.Nodup.of_map TableAlias.index ?_
  rw [List.map_map]
  exact run.indices ▸ List.nodup_range'

/-- None of them is an alias from outside. -/
theorem notMem (run : ComparisonRun c table filter n n' e)
    (hfresh : table.label.index < n ∨ n' ≤ table.label.index) :
    table.label ∉ run.tables.map BoundTable.label := by
  intro h
  have hindex : table.label.index ∈ run.tables.map fun t => t.label.index := by
    obtain ⟨t, ht, hlabel⟩ := List.mem_map.1 h
    exact List.mem_map.2 ⟨t, ht, by rw [hlabel]⟩
  rw [run.indices, List.mem_range'_1] at hindex
  have hn := run.next
  omega

end ComparisonRun

/-! ### Scopes -/

attribute [local simp] Expr.Scoped ListScoped

@[simp] theorem Context.scoped_tag (c : Context) (rule : String) (e : Expr)
    (scope : List TableAlias) : (c.tag rule e).Scoped scope ↔ e.Scoped scope := by
  unfold Context.tag
  split <;> simp

@[simp] theorem scoped_whereCondition (c : Context) (e : Expr) (scope : List TableAlias) :
    (whereCondition c e).Scoped scope ↔ e.Scoped scope := by
  unfold whereCondition
  split <;> simp

@[simp] theorem scoped_asJson (e : Expr) (scope : List TableAlias) :
    e.asJson.Scoped scope ↔ e.Scoped scope := by
  simp [Expr.asJson]

@[simp] theorem BoundTable.scoped_column (table : BoundTable) (name : String)
    (scope : List TableAlias) : (table.column name).Scoped scope ↔ table.label ∈ scope := by
  simp [BoundTable.column, ColumnRef.Scoped, ColumnRef.parts]

theorem listScoped_iff {scope : List TableAlias} {es : List Expr} :
    ListScoped scope es ↔ ∀ e ∈ es, e.Scoped scope := by
  induction es with
  | nil => simp
  | cons e es ih => simp [ih]

theorem joinCondition_scoped {source target : BoundTable} {name : String} {r : Relationship}
    {e : Expr} {scope : List TableAlias} (h : joinCondition source target name r = .ok e)
    (hs : source.label ∈ scope) (ht : target.label ∈ scope) : e.Scoped scope := by
  rw [joinCondition_ok h]
  refine Expr.scoped_foldl_conj _ trivial (listScoped_iff.2 fun e he => ?_)
  obtain ⟨pair, -, rfl⟩ := List.mem_map.1 he
  simp [hs, ht]

/-- Where the tables of a walk and the one it starts from are in scope, so are its conditions and the
table it ends at. -/
theorem Walk.scoped {c : Context} {table last : BoundTable} {path : List String} {n : Nat}
    {tables : List BoundTable} {joins : List Expr} {scope : List TableAlias}
    (h : Walk c table path n tables joins last) (hstart : table.label ∈ scope)
    (htables : ∀ t ∈ tables, t.label ∈ scope) : ListScoped scope joins ∧ last.label ∈ scope := by
  induction h with
  | nil => exact ⟨trivial, hstart⟩
  | cons _ hj _ ih =>
    have hnext := htables _ List.mem_cons_self
    obtain ⟨hjoins, hlast⟩ := ih hnext fun t ht => htables t (by simp [ht])
    exact ⟨⟨joinCondition_scoped hj hstart hnext, hjoins⟩, hlast⟩

theorem Comparing.scoped {c : Context} {l r : BoundTable} {filter : Filter}
    {left right : List String} {e : Expr} {scope : List TableAlias}
    (h : Comparing c l r filter left right e) (hl : l.label ∈ scope) (hr : r.label ∈ scope) :
    e.Scoped scope := by
  cases h with
  | isNull column => simpa using hl
  | value _ _ => simpa using hl
  | column _ => simpa using ⟨hl, hr⟩
  | @list _ _ items hs =>
    split
    · trivial
    · refine ⟨by simpa using hl, ?_⟩
      replace hs := options_ok hs
      clear *- hs
      induction hs with
      | nil => trivial
      | cons hitem _ ih =>
        obtain ⟨v, -, rfl⟩ := hitem
        exact ⟨by simp, ih⟩

theorem ComparisonRun.scoped {c : Context} {table : BoundTable} {filter : Filter} {n n' : Nat}
    {e : Expr} {scope : List TableAlias} (h : ComparisonRun c table filter n n' e)
    (ht : table.label ∈ scope) : e.Scoped scope := by
  have inner {scope : List TableAlias} (ht : table.label ∈ scope)
      (hts : ∀ t ∈ h.leftTables ++ h.rightTables, t.label ∈ scope) :
      ListScoped scope (h.leftJoins ++ h.rightJoins) ∧ h.comparison.Scoped scope := by
    obtain ⟨hl, hleft⟩ := h.leftWalk.scoped ht fun t ht => hts t (by simp [ht])
    obtain ⟨hr, hright⟩ := h.rightWalk.scoped ht fun t ht => hts t (by simp [ht])
    rw [listScoped_iff] at hl hr ⊢
    exact ⟨fun e he => (List.mem_append.1 he).elim (hl e) (hr e), h.comparing.scoped hleft hright⟩
  rw [h.result]
  unfold Reach.existence
  split
  · rename_i hnone
    simp only at hnone
    exact (inner ht (by simp [hnone])).2
  · rename_i first others hsome
    simp only at hsome
    have hscope : ∀ t ∈ h.leftTables ++ h.rightTables,
        t.label ∈ first.label :: others.map BoundTable.label ++ scope := by
      intro t ht
      rw [hsome] at ht
      rcases List.mem_cons.1 ht with rfl | ht
      · simp
      · exact List.mem_append_left _ (List.mem_cons_of_mem _ (List.mem_map_of_mem ht))
    obtain ⟨hjoins, hcomparison⟩ := inner (List.mem_append_right _ ht) hscope
    have hfold := Expr.scoped_foldl_conj (e := .always) _ trivial hjoins
    have hlabels : others.map (CrossJoin.label ∘ BoundTable.join) = others.map BoundTable.label := rfl
    rw [Context.scoped_tag]
    refine ⟨trivial, trivial, ?_, trivial⟩
    simpa [BoundTable.source, Source.label, hlabels] using Expr.scoped_conj hfold hcomparison

theorem scoped_disjunction {scope : List TableAlias} {es : List Expr} (h : ListScoped scope es) :
    (disjunction es).Scoped scope := by
  cases es with
  | nil => trivial
  | cons e es => exact Expr.scoped_foldl_or es h.1 h.2

mutual

theorem filterCondition_scoped {c : Context} {table : BoundTable} {scope : List TableAlias}
    (ht : table.label ∈ scope) :
    ∀ (filter : Filter) {n n' : Nat} {e : Expr},
      filterCondition c table filter n = .ok e n' → e.Scoped scope
  | .and filters, _, _, _, h => by
    obtain ⟨es, hes, rfl⟩ := filterCondition_and_ok h
    exact Expr.scoped_foldl_conj es trivial (filterConditions_scoped ht filters hes)
  | .or filters, _, _, _, h => by
    obtain ⟨es, hes, rfl⟩ := filterCondition_or_ok h
    exact scoped_disjunction (filterConditions_scoped ht filters hes)
  | .not filter, _, _, _, h => by
    obtain ⟨e, he, rfl⟩ := filterCondition_not_ok h
    rw [Expr.Scoped]
    exact filterCondition_scoped ht filter he
  | .unary _ _, _, _, _, h => by
    obtain ⟨run⟩ := filterCondition_unary_ok h
    exact run.scoped ht
  | .binary _ _ _, _, _, _, h => by
    obtain ⟨run⟩ := filterCondition_binary_ok h
    exact run.scoped ht
  | .list _ _ _, _, _, _, h => by
    obtain ⟨run⟩ := filterCondition_list_ok h
    exact run.scoped ht

theorem filterConditions_scoped {c : Context} {table : BoundTable} {scope : List TableAlias}
    (ht : table.label ∈ scope) :
    ∀ (filters : List Filter) {n n' : Nat} {es : List Expr},
      filterConditions c table filters n = .ok es n' → ListScoped scope es
  | [], _, _, _, h => by
    obtain ⟨rfl, rfl⟩ := filterConditions_nil_ok h
    trivial
  | filter :: filters, _, _, _, h => by
    obtain ⟨e, es, m, he, hes, rfl⟩ := filterConditions_cons_ok h
    exact ⟨filterCondition_scoped ht filter he, filterConditions_scoped ht filters hes⟩

end

/-- The parent of a link, if there is one, is in scope. -/
def LinkScoped (scope : List TableAlias) (link : Option Link) : Prop :=
  ∀ l ∈ link, l.parent.label ∈ scope

theorem linkScoped_none (scope : List TableAlias) : LinkScoped scope none := by
  rintro l ⟨⟩

theorem linkScoped_some {scope : List TableAlias} {l : Link} :
    LinkScoped scope (some l) ↔ l.parent.label ∈ scope := by
  simp [LinkScoped]

theorem LinkScoped.inner {scope : List TableAlias} {link : Option Link} (h : LinkScoped scope link)
    (own : List TableAlias) : LinkScoped (own ++ scope) link :=
  fun l hl => List.mem_append_right _ (h l hl)

theorem rowCondition_scoped {c : Context} {table : BoundTable} {link : Option Link}
    {filter : Option Filter} {n n' : Nat} {e : Expr} {scope : List TableAlias}
    (h : rowCondition c table link filter n = .ok e n') (ht : table.label ∈ scope)
    (hl : LinkScoped scope link) : e.Scoped scope := by
  obtain ⟨own, join, hown, hjoin, rfl⟩ := rowCondition_ok h
  refine Expr.scoped_conj ?_ ?_
  · cases filter with
    | none =>
      obtain ⟨rfl, rfl⟩ := pure_ok_iff.1 hown
      trivial
    | some f => exact filterCondition_scoped ht f hown
  · cases link with
    | none =>
      cases hjoin
      trivial
    | some l => exact joinCondition_scoped hjoin (hl l rfl) ht

theorem scoped_orderColumns {table : BoundTable} {scope : List TableAlias}
    (ht : table.label ∈ scope) (orderBy : List OrderBy) :
    OrderScoped scope (orderColumns table orderBy) := by
  induction orderBy with
  | nil => trivial
  | cons o orderBy ih => exact ⟨(table.scoped_column o.column scope).2 ht, ih⟩

theorem scoped_pageRows {c : Context} {table : BoundTable} {page : Page} {condition : Expr}
    {outer : List TableAlias} (h : condition.Scoped (table.label :: outer)) :
    (pageRows c table page condition).Scoped outer := by
  refine ⟨trivial, trivial, ?_, ?_⟩
  · simpa [BoundTable.source, Source.label] using h
  · exact scoped_orderColumns (by simp [BoundTable.source, Source.label]) page.orderBy

theorem rowsArray_scoped {c : Context} {name : String} {link : Option Link} {page : Page}
    {object : BoundTable → Compile Expr} {n n' : Nat} {e : Expr} {scope : List TableAlias}
    (hobject : ∀ {t n n' e scope}, t.label ∈ scope → object t n = .ok e n' → e.Scoped scope)
    (h : rowsArray c name link page object n = .ok e n') (hl : LinkScoped scope link) :
    e.Scoped scope := by
  obtain ⟨condition, m, objects, k, hc, hobjects, rfl, rfl⟩ := rowsArray_ok h
  have hcond : condition.Scoped ((BoundTable.fresh name n).label :: scope) :=
    rowCondition_scoped hc (by simp) (hl.inner [_])
  have hobjs : objects.Scoped scope := by
    cases hobjects with
    | direct _ run =>
      refine ⟨trivial, ⟨?_, trivial⟩, ?_, trivial⟩
      · exact hobject (by simp [BoundTable.source, Source.label]) run
      · simpa [BoundTable.source, Source.label, Select.ofItems] using hcond
    | ordered _ run =>
      refine ⟨scoped_pageRows hcond, ⟨?_, trivial⟩, trivial, trivial⟩
      exact hobject (by simp [Source.label]) run
  rw [Context.scoped_tag]
  refine ⟨hobjs, ⟨⟨?_, trivial⟩, trivial⟩, trivial, trivial⟩
  simp [ColumnRef.Scoped, ColumnRef.parts, Source.label]

theorem AggregateRun.scoped {table : BoundTable} {a : Aggregate} {e : Expr} {scope : List TableAlias}
    (h : AggregateRun table a e) (ht : table.label ∈ scope) : e.Scoped scope := by
  cases h with
  | rows => trivial
  | values column => exact ⟨_, ht, rfl⟩
  | distinct column => exact ⟨_, ht, rfl⟩
  | single _ => exact ⟨⟨_, ht, rfl⟩, trivial⟩

theorem aggregatesSelect_scoped {c : Context} {name : String} {link : Option Link} {page : Page}
    {aggregates : List (String × Aggregate)} {n n' : Nat} {s : Select} {scope : List TableAlias}
    (h : aggregatesSelect c name link page aggregates n = .ok s n') (hl : LinkScoped scope link) :
    s.Scoped scope := by
  obtain ⟨condition, m, entries, hc, hentries, rfl, rfl⟩ := aggregatesSelect_ok h
  have hcond : condition.Scoped ((BoundTable.fresh name n).label :: scope) :=
    rowCondition_scoped hc (by simp) (hl.inner [_])
  have hscoped : EntriesScoped ((BoundTable.fresh name m).label :: scope) entries := by
    clear h
    induction hentries with
    | nil => trivial
    | cons ha _ ih => exact ⟨ha.2.scoped (by simp), ih⟩
  refine ⟨scoped_pageRows hcond, ⟨?_, trivial⟩, trivial, trivial⟩
  simpa [Source.label, Select.ofItems] using hscoped

theorem relatedObject_scoped {c : Context} {link : Link} {filter : Option Filter}
    {object : BoundTable → Compile Expr} {n n' : Nat} {e : Expr} {scope : List TableAlias}
    (hobject : ∀ {t n n' e scope}, t.label ∈ scope → object t n = .ok e n' → e.Scoped scope)
    (h : relatedObject c link filter object n = .ok e n') (hl : link.parent.label ∈ scope) :
    e.Scoped scope := by
  obtain ⟨condition, m, o, hc, ho, rfl⟩ := relatedObject_ok h
  have hcond : condition.Scoped ((BoundTable.fresh link.relationship.target n).label :: scope) :=
    rowCondition_scoped hc (by simp) ((linkScoped_some.2 hl).inner [_])
  rw [Context.scoped_tag]
  refine ⟨trivial, ⟨⟨⟨?_, trivial⟩, trivial⟩, trivial⟩, ?_, trivial⟩
  · exact hobject (by simp [BoundTable.source, Source.label]) ho
  · simpa [BoundTable.source, Source.label, Select.ofItems] using hcond

mutual

theorem arrayQuery_scoped {c : Context} :
    ∀ (q : Query) {depth : Nat} {name : String} {link : Option Link} {n n' : Nat} {e : Expr}
      {scope : List TableAlias},
      LinkScoped scope link → arrayQuery c depth name link q n = .ok e n' → e.Scoped scope
  | ⟨fields, none, _, _, _, _⟩, _, _, _, _, _, _, _, hl, h =>
    rowsArray_scoped (fieldsObject_scoped fields) (arrayQuery_rows_ok rfl h) hl
  | ⟨fields, some aggregates, _, _, _, _⟩, _, _, _, _, _, _, _, hl, h => by
    obtain ⟨s, m, hs, ⟨-, rfl, rfl⟩ | ⟨rows, -, hrows, rfl⟩⟩ := arrayQuery_aggregates_ok rfl h
    · exact ⟨(scoped_asJson _ _).2 (aggregatesSelect_scoped hs hl), trivial⟩
    · refine ⟨(scoped_asJson _ _).2 (aggregatesSelect_scoped hs hl), (scoped_asJson _ _).2 ?_, trivial⟩
      exact rowsArray_scoped (fieldsObject_scoped fields) hrows hl

theorem objectQuery_scoped {c : Context} :
    ∀ (q : Query) {depth : Nat} {link : Link} {n n' : Nat} {e : Expr} {scope : List TableAlias},
      link.parent.label ∈ scope → objectQuery c depth link q n = .ok e n' → e.Scoped scope
  | ⟨fields, _, _, _, _, _⟩, _, _, _, _, _, _, hl, h =>
    relatedObject_scoped (fieldsObject_scoped fields) (objectQuery_ok h).2 hl

theorem fieldsObject_scoped {c : Context} {depth : Nat} :
    ∀ (fields : Option (List (String × Field))) {table : BoundTable} {n n' : Nat} {e : Expr}
      {scope : List TableAlias},
      table.label ∈ scope → fieldsObject c depth table fields n = .ok e n' → e.Scoped scope
  | none, _, _, _, _, _, _, h => by
    obtain ⟨rfl, rfl⟩ := fieldsObject_none_ok h
    simp [EntriesScoped]
  | some fields, _, _, _, _, _, ht, h => by
    obtain ⟨entries, hentries, rfl⟩ := fieldsObject_some_ok h
    simpa using fieldEntries_scoped fields ht hentries

theorem fieldEntries_scoped {c : Context} {depth : Nat} :
    ∀ (fields : List (String × Field)) {table : BoundTable} {n n' : Nat}
      {entries : List (String × Expr)} {scope : List TableAlias},
      table.label ∈ scope → fieldEntries c depth table fields n = .ok entries n' →
        EntriesScoped scope entries
  | [], _, _, _, _, _, _, h => by
    obtain ⟨rfl, rfl⟩ := fieldEntries_nil_ok h
    trivial
  | (_, field) :: fields, _, _, _, _, _, ht, h => by
    obtain ⟨e, m, rest, he, hrest, rfl⟩ := fieldEntries_cons_ok h
    exact ⟨fieldValue_scoped field ht he, fieldEntries_scoped fields ht hrest⟩

theorem fieldValue_scoped {c : Context} {depth : Nat} :
    ∀ (field : Field) {table : BoundTable} {n n' : Nat} {e : Expr} {scope : List TableAlias},
      table.label ∈ scope → fieldValue c depth table field n = .ok e n' → e.Scoped scope
  | .column _, _, _, _, _, _, ht, h => by
    obtain ⟨rfl, rfl⟩ := fieldValue_column_ok h
    simpa using ht
  | .relationship _ q, _, _, _, _, _, ht, h => by
    obtain ⟨r, e, -, rfl, ⟨-, he⟩ | ⟨-, he⟩⟩ := fieldValue_relationship_ok h
    · simpa using objectQuery_scoped q ht he
    · simpa using arrayQuery_scoped q (linkScoped_some.2 ht) he

end

end Compile

open Sql

/-- **Alias scoping.** In a compiled request the aliases bound anywhere have the indices from zero up
to where the counter ends, each once; they are written differently even if case is ignored; and every
column is one of a table in scope where it stands. -/
theorem Request.compile_aliases {settings : QuerySettings} {r : Request} {plan : Plan}
    (h : r.compile settings = .ok plan) :
    ∃ e n, (Compile.arrayQuery { relationships := r.relationships, settings } 0 r.table none
        r.query).run 0 = .ok e n ∧
      (plan.select.aliases.map TableAlias.index).Perm (List.range n) ∧
      plan.select.aliases.Pairwise (fun a b => sameName a.label b.label = false) ∧
      plan.select.Scoped [] := by
  obtain ⟨e, n, he, hs, -⟩ := Request.compile_ok h
  have haliases : plan.select.aliases = e.aliases := by
    simp [hs, Select.ofItems, Select.aliases, sourceAliases, SelectList.aliases, entryAliases,
      orderAliases, Expr.aliases, Expr.always]
  have hperm : (plan.select.aliases.map TableAlias.index).Perm (List.range n) := by
    rw [haliases, List.range_eq_range']
    exact (Compile.arrayQuery_fills r.query he).perm
  refine ⟨e, n, he, hperm, ?_, ?_⟩
  · have hdistinct : (plan.select.aliases.map TableAlias.index).Nodup :=
      hperm.nodup_iff.2 List.nodup_range
    exact (List.pairwise_map.1 hdistinct).imp TableAlias.label_ne_of_index_ne
  · have hscoped := Compile.arrayQuery_scoped r.query (Compile.linkScoped_none []) he
    rw [hs]
    exact ⟨trivial, ⟨by simpa using hscoped, trivial⟩, trivial, trivial⟩

/-- A request with a filter along paths, an ordered page and fields two relationships deep binds eleven
aliases. -/
theorem Music.request_aliases :
    ∃ plan, Music.request.compile {} = .ok plan ∧
      (plan.select.aliases.map TableAlias.index).Perm (List.range 11) ∧
      plan.select.aliases.Pairwise (fun a b => sameName a.label b.label = false) ∧
      plan.select.Scoped [] := by
  have hcompile : Music.request.compile {} = .ok _ := rfl
  obtain ⟨e, n, hrun, hperm, hlabels, hscoped⟩ := Request.compile_aliases hcompile
  have hn : n = 11 := by
    have hlength := hperm.length_eq
    rw [List.length_map, List.length_range] at hlength
    exact hlength.symm.trans rfl
  exact ⟨_, hcompile, hn ▸ hperm, hlabels, hscoped⟩

end DataAgent
