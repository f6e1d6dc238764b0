import DataAgent.Proofs.Compile.FilterMeaning

/-!
# Proofs — Compile — Names

Which tables and columns a request names (`Request.known`), and that its statement names no others:
over a database that has them, the statement passes the check of names that precedes every run
(`Request.check_compile`). An alias stands for a table of the database, or for a select of all its
columns, so in either case the columns of the alias are those of the table (`InScope`).
-/

namespace DataAgent

open Sql

/-! ### Names in requests -/

/-- The database has the table. -/
def Sql.Database.hasTable (db : Database) (table : String) : Bool := (db.table? table).isSome

/-- The database has the table, and the table has the column. -/
def Sql.Database.hasColumn (db : Database) (table column : String) : Bool :=
  (db.table? table).any fun t => t.columns.any fun c => sameName c.name column

/-- The target and the columns of a relationship are there. -/
def Relationship.known (db : Database) (source : String) (r : Relationship) : Bool :=
  db.hasTable r.target &&
    r.mapping.all fun pair => db.hasColumn source pair.1 && db.hasColumn r.target pair.2

/-- The relationships along a path are there, and the column at its end. -/
def pathKnown (rels : List TableRelationships) (db : Database) (column : String) :
    String → List String → Bool
  | table, [] => db.hasColumn table column
  | table, name :: path =>
    (relationshipOf rels table name).all fun r =>
      r.known db table && pathKnown rels db column r.target path

/-- What a column is compared with is there. -/
def Operand.known (rels : List TableRelationships) (db : Database) (table : String) :
    Operand → Bool
  | .column c => pathKnown rels db c.name table c.path
  | .scalar _ => true

mutual

/-- The names in a filter are there. -/
def Filter.known (rels : List TableRelationships) (db : Database) (table : String) : Filter → Bool
  | .and filters | .or filters => Filter.allKnown rels db table filters
  | .not filter => filter.known rels db table
  | .unary _ column | .list _ column _ => pathKnown rels db column.name table column.path
  | .binary _ column operand =>
    pathKnown rels db column.name table column.path && operand.known rels db table

/-- The names in filters are there. -/
def Filter.allKnown (rels : List TableRelationships) (db : Database) (table : String) :
    List Filter → Bool
  | []                => true
  | filter :: filters => filter.known rels db table && Filter.allKnown rels db table filters

end

/-- The column of an aggregate is there. -/
def Aggregate.known (db : Database) (table : String) : Aggregate → Bool
  | .rowCount => true
  | .columnCount column _ | .single column _ => db.hasColumn table column

mutual

/-- The names in a query over a table are there. -/
def Query.known (rels : List TableRelationships) (db : Database) (table : String) : Query → Bool
  | ⟨fields, aggregates, filter, orderBy, _, _⟩ =>
    db.hasTable table && filter.all (Filter.known rels db table) &&
      (orderBy.getD []).all (fun o => db.hasColumn table o.column) &&
      (aggregates.getD []).all (fun a => a.2.known db table) && fieldsKnown rels db table fields

/-- The names in the fields of a row are there. -/
def fieldsKnown (rels : List TableRelationships) (db : Database) (table : String) :
    Option (List (String × Field)) → Bool
  | none        => true
  | some fields => membersKnown rels db table fields

/-- The names in fields are there. -/
def membersKnown (rels : List TableRelationships) (db : Database) (table : String) :
    List (String × Field) → Bool
  | []                   => true
  | (_, field) :: fields => field.known rels db table && membersKnown rels db table fields

/-- The names in a field are there. -/
def Field.known (rels : List TableRelationships) (db : Database) (table : String) : Field → Bool
  | .column name => db.hasColumn table name
  | .relationship name query =>
    (relationshipOf rels table name).all fun r => r.known db table && query.known rels db r.target

end

/-- The database has every table and every column that the request names. -/
def Request.known (db : Database) (r : Request) : Bool := r.query.known r.relationships db r.table

/-! ### Statements that pass -/

attribute [local simp] Sql.Expr.check Sql.checkList Sql.checkItems

namespace Sql

variable {db : Database} {scope : Scope}

theorem Expr.check_conj {l r : Expr} (hl : l.check db scope = .ok ()) (hr : r.check db scope = .ok ()) :
    (l.conj r).check db scope = .ok () := by
  unfold Expr.conj
  split
  · exact hr
  · split
    · exact hl
    · rw [Expr.check, hl]
      exact hr

theorem Expr.check_foldl_conj : ∀ {es : List Expr} {e : Expr}, e.check db scope = .ok () →
    (∀ e' ∈ es, e'.check db scope = .ok ()) → (es.foldl .conj e).check db scope = .ok ()
  | [], _, he, _ => he
  | e' :: es, _, he, h => by
    rw [List.foldl_cons]
    exact Expr.check_foldl_conj (Expr.check_conj he (h e' (by simp))) fun e hmem => h e (by simp [hmem])

theorem Expr.check_foldl_or : ∀ {es : List Expr} {e : Expr}, e.check db scope = .ok () →
    (∀ e' ∈ es, e'.check db scope = .ok ()) → (es.foldl .or e).check db scope = .ok ()
  | [], _, he, _ => he
  | e' :: es, e, he, h => by
    have hor : (Expr.or e e').check db scope = .ok () := by
      rw [Expr.check, he]
      exact h e' (by simp)
    rw [List.foldl_cons]
    exact Expr.check_foldl_or hor fun e hmem => h e (by simp [hmem])

theorem checkList_of_forall : ∀ {es : List Expr}, (∀ e ∈ es, e.check db scope = .ok ()) →
    checkList db scope es = .ok ()
  | [], _ => rfl
  | e :: es, h => by
    rw [checkList, h e (by simp)]
    exact checkList_of_forall fun e hmem => h e (by simp [hmem])

theorem checkItems_cons {key : String} {e : Expr} {items : List (String × Expr)} {names : List String}
    (he : e.check db scope = .ok ()) (hitems : checkItems db scope items = .ok names) :
    checkItems db scope ((key, e) :: items) = .ok (key :: names) := by
  rw [checkItems, he, hitems]
  rfl

/-- A select passes if its parts do, each with the names that are in scope for it. -/
theorem Select.check_of_parts {s : Select} {own own' : Scope} {names : List String}
    (hsource : checkSource db scope s.source = .ok own) (hjoins : checkJoins db s.joins = .ok own')
    (hcondition : s.condition.check db (own ++ own' ++ scope) = .ok ())
    (horder : checkOrder db (own ++ own' ++ scope) s.orderBy = .ok ())
    (hlist : s.list.check db (own ++ own') scope = .ok names) : s.check db scope = .ok names := by
  obtain ⟨list, source, joins, condition, orderBy, limit⟩ := s
  rw [Select.check, hsource, hjoins]
  simp only [bind, Except.bind]
  rw [hcondition, horder]
  exact hlist

end Sql

namespace Compile

variable {c : Context} {db : Database} {scope : Scope} {n m : Nat}

theorem Context.check_tag (c : Context) (rule : String) (e : Expr) :
    (c.tag rule e).check db scope = e.check db scope := by
  unfold Context.tag
  split
  · rw [Expr.check]
  · rfl

theorem check_whereCondition {e : Expr} (h : e.check db scope = .ok ()) :
    (whereCondition c e).check db scope = .ok () := by
  unfold whereCondition
  split
  · exact h
  · rwa [Context.check_tag]

theorem check_asJson {e : Expr} (h : e.check db scope = .ok ()) : e.asJson.check db scope = .ok () := by
  rw [Expr.asJson, Expr.check, checkList, h]
  rfl

/-- The alias of a table is in scope with the columns of the table. -/
def InScope (db : Database) (scope : Scope) (t : BoundTable) : Prop :=
  ∃ names, db.columns (.table t.name) = .ok names ∧ scope.lookup t.label = some names

theorem columns_of_hasTable {table : String} (h : db.hasTable table = true) :
    ∃ names, db.columns (.table table) = .ok names := by
  obtain ⟨t, ht⟩ := Option.isSome_iff_exists.1 h
  exact ⟨t.columns.map TableColumn.name, by simp [Database.columns, TableRef.tableName, ht]⟩

theorem InScope.cons_self {t : BoundTable} {names : List String}
    (h : db.columns (.table t.name) = .ok names) : InScope db ((t.label, names) :: scope) t :=
  ⟨names, h, lookup_cons_self _ _ _⟩

theorem InScope.cons {t : BoundTable} {label : TableAlias} (names : List String)
    (h : InScope db scope t) (hne : t.label.index ≠ label.index) :
    InScope db ((label, names) :: scope) t := by
  obtain ⟨columns, hcolumns, hlookup⟩ := h
  exact ⟨columns, hcolumns, by rw [lookup_cons_of_index_ne _ hne, hlookup]⟩

theorem InScope.check_ref {t : BoundTable} {column : String} (h : InScope db scope t)
    (hcolumn : db.hasColumn t.name column = true) :
    (ColumnRef.stored (.aliased t.label) column).check scope = .ok () := by
  obtain ⟨names, hnames, hlookup⟩ := h
  have hany : names.any (fun name => sameName name column) = true := by
    unfold Database.hasColumn at hcolumn
    cases ht : db.table? t.name with
    | none => simp [ht] at hcolumn
    | some table =>
      simp only [Database.columns, TableRef.tableName, ht, Except.ok.injEq] at hnames
      simpa [ht, ← hnames, List.any_map, Function.comp_def] using hcolumn
  simp only [ColumnRef.check, ColumnRef.parts, TableRef.find?, hlookup, hany, if_true]

theorem InScope.check_column {t : BoundTable} {column : String} (h : InScope db scope t)
    (hcolumn : db.hasColumn t.name column = true) : (t.column column).check db scope = .ok () := by
  rw [BoundTable.column, Expr.check]
  exact h.check_ref hcolumn

theorem joinCondition_check {source target : BoundTable} {name : String} {r : Relationship} {e : Expr}
    (h : joinCondition source target name r = .ok e) (hknown : r.known db source.name = true)
    (htarget : target.name = r.target) (hs : InScope db scope source) (ht : InScope db scope target) :
    e.check db scope = .ok () := by
  rw [joinCondition_ok h]
  refine Expr.check_foldl_conj rfl fun e he => ?_
  obtain ⟨pair, hpair, rfl⟩ := List.mem_map.1 he
  rw [Relationship.known, Bool.and_eq_true, List.all_eq_true] at hknown
  have hcolumns := hknown.2 pair hpair
  rw [Bool.and_eq_true, ← htarget] at hcolumns
  rw [Expr.check, hs.check_column hcolumns.1]
  exact ht.check_column hcolumns.2

/-! ### Filters -/

/-- The relationships along a path are there. -/
def StepsKnown (rels : List TableRelationships) (db : Database) (table : String) (path : List String) :
    Prop :=
  path = [] ∨ ∃ column, pathKnown rels db column table path = true

section Walks

variable {table last : BoundTable} {path : List String} {tables : List BoundTable} {joins : List Expr}

theorem pathKnown_cons {rels : List TableRelationships} {column source name : String}
    {path : List String} {r : Relationship} (found : relationshipOf rels source name = some r) :
    pathKnown rels db column source (name :: path) = true ↔
      r.known db source = true ∧ pathKnown rels db column r.target path = true := by
  rw [pathKnown, found, Option.all_some, Bool.and_eq_true]

theorem StepsKnown.cons {rels : List TableRelationships} {source name : String}
    {path : List String} {r : Relationship} (h : StepsKnown rels db source (name :: path))
    (found : relationshipOf rels source name = some r) :
    r.known db source = true ∧ StepsKnown rels db r.target path := by
  rcases h with h | ⟨column, h⟩
  · cases h
  · obtain ⟨hr, hpath⟩ := (pathKnown_cons found).1 h
    exact ⟨hr, .inr ⟨column, hpath⟩⟩

/-- The tables of a walk are there. -/
theorem Walk.hasTable (h : Walk c table path n tables joins last)
    (hknown : StepsKnown c.relationships db table.name path) :
    ∀ t ∈ tables, db.hasTable t.name = true := by
  induction h with
  | nil =>
    intro t ht
    cases ht
  | cons found _ _ ih =>
    obtain ⟨hr, hrest⟩ := hknown.cons (Context.relationshipOf_of_lookup found)
    intro t ht
    rcases List.mem_cons.1 ht with rfl | ht
    · rw [Relationship.known, Bool.and_eq_true] at hr
      exact hr.1
    · exact ih hrest t ht

/-- A column that is there at the end of a path is there at the end of the walk. -/
theorem Walk.hasColumn (h : Walk c table path n tables joins last) {column : String}
    (hknown : pathKnown c.relationships db column table.name path = true) :
    db.hasColumn last.name column = true := by
  induction h with
  | nil => exact hknown
  | cons found _ _ ih =>
    exact ih ((pathKnown_cons (Context.relationshipOf_of_lookup found)).1 hknown).2

/-- The conditions of a walk pass, and the table at its end is in scope. -/
theorem Walk.check (h : Walk c table path n tables joins last)
    (hknown : StepsKnown c.relationships db table.name path) (hstart : InScope db scope table)
    (htables : ∀ t ∈ tables, InScope db scope t) :
    (∀ e ∈ joins, e.check db scope = .ok ()) ∧ InScope db scope last := by
  induction h with
  | nil => exact ⟨fun e he => (by cases he), hstart⟩
  | cons found joined _ ih =>
    obtain ⟨hr, hrest⟩ := hknown.cons (Context.relationshipOf_of_lookup found)
    have hnext := htables _ List.mem_cons_self
    obtain ⟨hjoins, hlast⟩ := ih hrest hnext fun t ht => htables t (List.mem_cons_of_mem _ ht)
    refine ⟨fun e he => ?_, hlast⟩
    rcases List.mem_cons.1 he with rfl | he
    · exact joinCondition_check joined hr rfl hstart hnext
    · exact hjoins e he

end Walks

section Comparisons

variable {table : BoundTable} {filter : Filter} {n' : Nat} {e : Expr}

/-- The paths of a comparison whose names are there lead along relationships that are there. -/
theorem Comparing.stepsKnown {rels : List TableRelationships} {source : String} {l r : BoundTable}
    {left right : List String} (h : Comparing c l r filter left right e)
    (hknown : filter.known rels db source = true) :
    StepsKnown rels db source left ∧ StepsKnown rels db source right := by
  cases h with
  | isNull column => exact ⟨.inr ⟨_, hknown⟩, .inl rfl⟩
  | value => exact ⟨.inr ⟨_, (Bool.and_eq_true _ _ ▸ hknown).1⟩, .inl rfl⟩
  | column =>
    rw [Filter.known, Bool.and_eq_true] at hknown
    exact ⟨.inr ⟨_, hknown.1⟩, .inr ⟨_, hknown.2⟩⟩
  | list => exact ⟨.inr ⟨_, hknown⟩, .inl rfl⟩

theorem Comparing.check {rels : List TableRelationships} {source : String} {l r : BoundTable}
    {left right : List String} (h : Comparing c l r filter left right e)
    (hknown : filter.known rels db source = true) (hl : InScope db scope l) (hr : InScope db scope r)
    (hleft : ∀ column, pathKnown rels db column source left = true → db.hasColumn l.name column = true)
    (hright : ∀ column, pathKnown rels db column source right = true →
      db.hasColumn r.name column = true) :
    e.check db scope = .ok () := by
  cases h with
  | isNull column =>
    rw [Expr.check, Context.check_tag]
    exact hl.check_column (hleft _ hknown)
  | value =>
    rw [Filter.known, Bool.and_eq_true] at hknown
    rw [Expr.check, Context.check_tag, Context.check_tag, hl.check_column (hleft _ hknown.1), Expr.check]
    rfl
  | column =>
    rw [Filter.known, Bool.and_eq_true] at hknown
    rw [Expr.check, Context.check_tag, Context.check_tag, Context.check_tag,
      hl.check_column (hleft _ hknown.1)]
    exact hr.check_column (hright _ hknown.2)
  | list scalars =>
    split
    · rfl
    · rw [Expr.check, Context.check_tag, hl.check_column (hleft _ hknown)]
      refine checkList_of_forall fun item hitem => ?_
      obtain ⟨_, v, -, rfl⟩ := exists_of_mem_forall₂ (options_ok scalars).flip hitem
      rw [Context.check_tag, Expr.check]

/-- Tables that are there can be bound together. -/
theorem exists_columns : ∀ {tables : List BoundTable}, (∀ t ∈ tables, db.hasTable t.name = true) →
    ∃ columns, List.Forall₂ (fun t names => db.columns (.table t.name) = .ok names) tables columns
  | [], _ => ⟨[], .nil⟩
  | t :: tables, h => by
    obtain ⟨names, hnames⟩ := columns_of_hasTable (h t List.mem_cons_self)
    obtain ⟨columns, hcolumns⟩ := exists_columns fun t ht => h t (List.mem_cons_of_mem _ ht)
    exact ⟨names :: columns, .cons hnames hcolumns⟩

theorem checkJoins_bindAll {tables : List BoundTable} {columns : List (List String)}
    (h : List.Forall₂ (fun t names => db.columns (.table t.name) = .ok names) tables columns) :
    checkJoins db (tables.map BoundTable.join) = .ok (bindAll tables columns) := by
  induction h with
  | nil => rfl
  | @cons t _ tables _ hnames _ ih =>
    rw [List.map_cons, checkJoins, ih, BoundTable.join, hnames]
    rfl

/-- The existence of rows passes if the condition on them does. -/
theorem check_existsRow {first : BoundTable} {others : List BoundTable} {columns : List (List String)}
    {condition : Expr}
    (hcolumns : List.Forall₂ (fun t names => db.columns (.table t.name) = .ok names) (first :: others)
      columns)
    (h : condition.check db (bindAll (first :: others) columns ++ scope) = .ok ()) :
    (Expr.existsRow
      { list := .one
        source := some first.source
        joins := others.map BoundTable.join
        condition }).check db scope = .ok () := by
  cases hcolumns with
  | @cons _ names _ columns hfirst hothers =>
    have hsource : checkSource db scope (some first.source) = .ok [(first.label, names)] := by
      rw [checkSource, BoundTable.source, Source.check, hfirst]
      rfl
    let select : Select :=
      { list := .one, source := some first.source, joins := others.map BoundTable.join, condition }
    have hselect : select.check db scope = .ok ["1"] :=
      Select.check_of_parts hsource (checkJoins_bindAll hothers) h rfl rfl
    rw [Expr.check, hselect]
    rfl

theorem ComparisonRun.check (run : ComparisonRun c table filter n n' e)
    (hknown : filter.known c.relationships db table.name = true) (ht : InScope db scope table)
    (hfresh : table.label.index < n ∨ n' ≤ table.label.index) : e.check db scope = .ok () := by
  obtain ⟨hleft, hright⟩ := run.comparing.stepsKnown hknown
  have hparts {inner : Scope} (ht : InScope db inner table)
      (htables : ∀ t ∈ run.tables, InScope db inner t) :
      (∀ e ∈ run.leftJoins ++ run.rightJoins, e.check db inner = .ok ()) ∧
        run.comparison.check db inner = .ok () := by
    obtain ⟨hljoins, hl⟩ := run.leftWalk.check hleft ht
      fun t ht => htables t (List.mem_append_left _ ht)
    obtain ⟨hrjoins, hr⟩ := run.rightWalk.check hright ht
      fun t ht => htables t (List.mem_append_right _ ht)
    exact ⟨fun e he => (List.mem_append.1 he).elim (hljoins e) (hrjoins e),
      run.comparing.check hknown hl hr (fun _ => run.leftWalk.hasColumn)
        (fun _ => run.rightWalk.hasColumn)⟩
  have htables : ∀ t ∈ run.tables, db.hasTable t.name = true := fun t ht =>
    (List.mem_append.1 ht).elim (run.leftWalk.hasTable hleft t) (run.rightWalk.hasTable hright t)
  cases htab : run.tables with
  | nil =>
    obtain ⟨he, -⟩ := run.of_tables_eq_nil htab
    have hcomparison := (hparts ht (by simp [htab])).2
    rwa [← he] at hcomparison
  | cons first others =>
    obtain ⟨he, -⟩ := run.of_tables_eq_cons htab
    obtain ⟨columns, hcolumns⟩ := exists_columns htables
    have hscope : ∀ t ∈ run.tables, InScope db (bindAll run.tables columns ++ scope) t := by
      intro t ht
      obtain ⟨names, hlookup, hnames⟩ :=
        exists_of_mem_forall₂ (lookup_bindAll scope hcolumns run.nodup) ht
      exact ⟨names, hnames, hlookup⟩
    have hstart : InScope db (bindAll run.tables columns ++ scope) table := by
      obtain ⟨names, hnames, hlookup⟩ := ht
      exact ⟨names, hnames, by rw [lookup_bindAll_of_notMem _ (run.notMem hfresh), hlookup]⟩
    obtain ⟨hjoins, hcomparison⟩ := hparts hstart hscope
    have hcondition : run.condition.check db (bindAll run.tables columns ++ scope) = .ok () :=
      Expr.check_conj (Expr.check_foldl_conj rfl hjoins) hcomparison
    rw [htab] at hcolumns hcondition
    have hexists := check_existsRow hcolumns hcondition
    rw [← c.check_tag "exists"] at hexists
    exact (congrArg (Expr.check db scope) he).trans hexists

end Comparisons

mutual

/-- The condition of a filter whose names are there passes. -/
theorem filterCondition_check {table : BoundTable} (ht : InScope db scope table) :
    ∀ (filter : Filter) {n n' : Nat} {e : Expr}, filterCondition c table filter n = .ok e n' →
      filter.known c.relationships db table.name = true →
      (table.label.index < n ∨ n' ≤ table.label.index) → e.check db scope = .ok ()
  | .and filters, _, _, _, h, hknown, hfresh => by
    obtain ⟨es, hes, rfl⟩ := filterCondition_and_ok h
    exact Expr.check_foldl_conj rfl (filterConditions_check ht filters hes hknown hfresh)
  | .or filters, _, _, _, h, hknown, hfresh => by
    obtain ⟨es, hes, rfl⟩ := filterCondition_or_ok h
    have hall := filterConditions_check ht filters hes hknown hfresh
    cases es with
    | nil => rfl
    | cons e es =>
      exact Expr.check_foldl_or (hall e List.mem_cons_self)
        fun e he => hall e (List.mem_cons_of_mem _ he)
  | .not filter, _, _, _, h, hknown, hfresh => by
    obtain ⟨e, he, rfl⟩ := filterCondition_not_ok h
    rw [Expr.check]
    exact filterCondition_check ht filter he hknown hfresh
  | .unary _ _, _, _, _, h, hknown, hfresh =>
    (filterCondition_unary_ok h).elim fun run => run.check hknown ht hfresh
  | .binary _ _ _, _, _, _, h, hknown, hfresh =>
    (filterCondition_binary_ok h).elim fun run => run.check hknown ht hfresh
  | .list _ _ _, _, _, _, h, hknown, hfresh =>
    (filterCondition_list_ok h).elim fun run => run.check hknown ht hfresh

/-- The conditions of filters whose names are there pass. -/
theorem filterConditions_check {table : BoundTable} (ht : InScope db scope table) :
    ∀ (filters : List Filter) {n n' : Nat} {es : List Expr},
      filterConditions c table filters n = .ok es n' →
      Filter.allKnown c.relationships db table.name filters = true →
      (table.label.index < n ∨ n' ≤ table.label.index) → ∀ e ∈ es, e.check db scope = .ok ()
  | [], _, _, _, h, _, _ => by
    obtain ⟨rfl, rfl⟩ := filterConditions_nil_ok h
    intro e he
    cases he
  | filter :: filters, _, _, _, h, hknown, hfresh => by
    obtain ⟨e, es, m, he, hes, rfl⟩ := filterConditions_cons_ok h
    rw [Filter.allKnown, Bool.and_eq_true] at hknown
    have hle := (filterCondition_fills filter he).le
    have hle' := (filterConditions_fills filters hes).le
    intro e' he'
    rcases List.mem_cons.1 he' with rfl | he'
    · exact filterCondition_check ht filter he hknown.1 (by omega)
    · exact filterConditions_check ht filters hes hknown.2 (by omega) e' he'

end

/-! ### Rows of a page -/

/-- The parent of a link, if there is one, is in scope and the relationship is there. -/
def LinkKnown (db : Database) (scope : Scope) (n : Nat) (name : String) (link : Option Link) : Prop :=
  ∀ l ∈ link, InScope db scope l.parent ∧ l.parent.label.index < n ∧
    l.relationship.known db l.parent.name = true ∧ l.relationship.target = name

/-- The filter and the order of a page are there. -/
def PageKnown (rels : List TableRelationships) (db : Database) (name : String) (page : Page) : Prop :=
  page.filter.all (Filter.known rels db name) = true ∧
    ∀ o ∈ page.orderBy, db.hasColumn name o.column = true

section Pages

variable {name : String} {names : List String} {link : Option Link} {page : Page} {condition e : Expr}
  {object : BoundTable → Compile Expr}

theorem LinkKnown.mono (h : LinkKnown db scope n name link) (hle : n ≤ m) :
    LinkKnown db scope m name link := by
  intro l hl
  obtain ⟨hparent, hindex, hrest⟩ := h l hl
  exact ⟨hparent, Nat.lt_of_lt_of_le hindex hle, hrest⟩

theorem rowCondition_check {filter : Option Filter} (hnames : db.columns (.table name) = .ok names)
    (h : rowCondition c (.fresh name n) link filter (n + 1) = .ok e m)
    (hfilter : filter.all (Filter.known c.relationships db name) = true)
    (hlink : LinkKnown db scope n name link) :
    (whereCondition c e).check db (((BoundTable.fresh name n).label, names) :: scope) = .ok () := by
  obtain ⟨own, join, hown, hjoin, rfl⟩ := rowCondition_ok h
  have hself : InScope db (((BoundTable.fresh name n).label, names) :: scope) (.fresh name n) :=
    .cons_self hnames
  refine check_whereCondition (Expr.check_conj ?_ ?_)
  · cases filter with
    | none =>
      obtain ⟨rfl, -⟩ := pure_ok_iff.1 hown
      rfl
    | some f => exact filterCondition_check hself f hown hfilter (.inl (Nat.lt_succ_self n))
  · cases link with
    | none =>
      cases hjoin
      rfl
    | some l =>
      obtain ⟨hparent, hindex, hknown, htarget⟩ := hlink l rfl
      exact joinCondition_check hjoin hknown htarget.symm (hparent.cons names (Nat.ne_of_lt hindex)) hself

theorem checkOrder_orderColumns {t : BoundTable} (ht : InScope db scope t) :
    ∀ {orderBy : List OrderBy}, (∀ o ∈ orderBy, db.hasColumn t.name o.column = true) →
      checkOrder db scope (orderColumns t orderBy) = .ok ()
  | [], _ => rfl
  | o :: orderBy, h => by
    rw [orderColumns, List.map_cons, checkOrder, ht.check_column (h o List.mem_cons_self)]
    exact checkOrder_orderColumns ht fun o ho => h o (List.mem_cons_of_mem _ ho)

/-- A select over the rows of a page passes if its list does. -/
theorem check_page (page : Page) {list : SelectList} {columns : List String}
    (hnames : db.columns (.table name) = .ok names)
    (hcondition : rowCondition c (.fresh name n) link page.filter (n + 1) = .ok condition m)
    (hpage : PageKnown c.relationships db name page) (hlink : LinkKnown db scope n name link)
    (hlist : list.check db [((BoundTable.fresh name n).label, names)] scope = .ok columns) :
    Select.check db scope
      { list
        source := some (BoundTable.fresh name n).source
        condition := whereCondition c condition
        orderBy := orderColumns (.fresh name n) page.orderBy
        limit := page.limit } = .ok columns := by
  have hsource : checkSource db scope (some (BoundTable.fresh name n).source) =
      .ok [((BoundTable.fresh name n).label, names)] := by
    rw [checkSource, BoundTable.source, Source.check, BoundTable.fresh_name, hnames]
    rfl
  have hself : InScope db (((BoundTable.fresh name n).label, names) :: scope) (.fresh name n) :=
    .cons_self hnames
  exact Select.check_of_parts hsource rfl (rowCondition_check hnames hcondition hpage.1 hlink)
    (checkOrder_orderColumns hself hpage.2) hlist

/-- All columns of a page are the columns of its table. -/
theorem check_pageRows (hnames : db.columns (.table name) = .ok names)
    (hcondition : rowCondition c (.fresh name n) link page.filter (n + 1) = .ok condition m)
    (hpage : PageKnown c.relationships db name page) (hlink : LinkKnown db scope n name link) :
    (pageRows c (.fresh name n) page condition).check db scope = .ok names :=
  check_page page hnames hcondition hpage hlink (by simp [SelectList.check, pure, Except.pure])

theorem check_ofItems {items : List (String × Expr)} {inner : Select} {label : TableAlias}
    {columns : List String} (hinner : inner.check db scope = .ok names)
    (hitems : checkItems db ((label, names) :: scope) items = .ok columns) :
    Select.check db scope { Select.ofItems items with source := some (.select inner label) } =
      .ok columns := by
  have hsource : checkSource db scope (some (.select inner label)) = .ok [(label, names)] := by
    rw [checkSource, Source.check, hinner]
    rfl
  exact Select.check_of_parts hsource rfl rfl rfl hitems

theorem check_subselect {s : Select} (h : s.check db scope = .ok names) :
    (Expr.subselect s).check db scope = .ok () := by
  rw [Expr.check, h]
  rfl

/-- The expressions of the rows of a table pass wherever the alias of the table is in scope. -/
def Passes (db : Database) (name : String) (object : BoundTable → Compile Expr) : Prop :=
  ∀ {t : BoundTable} {m k : Nat} {e : Expr} {scope : Scope}, t.name = name → object t m = .ok e k →
    InScope db scope t → t.label.index < m → e.check db scope = .ok ()

theorem rowsArray_check (hobject : Passes db name object)
    (hnames : db.columns (.table name) = .ok names) (hpage : PageKnown c.relationships db name page)
    (hlink : LinkKnown db scope n name link) (h : rowsArray c name link page object n = .ok e m) :
    e.check db scope = .ok () := by
  obtain ⟨condition, k, objects, k', hcondition, run, rfl, -⟩ := rowsArray_ok h
  have hself (k : Nat) : InScope db (((BoundTable.fresh name k).label, names) :: scope)
      (.fresh name k) := .cons_self hnames
  have hobjects : objects.check db scope = .ok ["j"] := by
    cases run with
    | direct plain run =>
      have hitem := hobject rfl run (hself n) (rowCondition_fills hcondition).le
      have hlist : (SelectList.items [("j", _)]).check db [((BoundTable.fresh name n).label, names)]
          scope = .ok ["j"] := checkItems_cons hitem rfl
      have hselect := check_page page hnames hcondition hpage hlink hlist
      rwa [plain] at hselect
    | ordered _ run =>
      have hitem := hobject rfl run (hself k) (Nat.lt_succ_self k)
      exact check_ofItems (check_pageRows hnames hcondition hpage hlink) (checkItems_cons hitem rfl)
  rw [Context.check_tag]
  refine check_subselect (check_ofItems hobjects (checkItems_cons ?_ rfl))
  rw [Expr.check]
  refine checkList_of_forall fun e he => ?_
  obtain rfl := List.mem_singleton.1 he
  refine check_asJson ?_
  rw [Expr.check]
  simp [ColumnRef.check, ColumnRef.parts, TableRef.find?, sameName]

theorem AggregateRun.check {t : BoundTable} {a : Aggregate} (run : AggregateRun t a e)
    (ht : InScope db scope t) (hknown : a.known db t.name = true) : e.check db scope = .ok () := by
  cases run with
  | rows => rfl
  | values column | distinct column =>
    rw [Expr.check]
    exact ht.check_ref hknown
  | single =>
    rw [Expr.check, checkList, ht.check_column hknown]
    rfl

theorem aggregatesSelect_check {aggregates : List (String × Aggregate)} {s : Select}
    (hnames : db.columns (.table name) = .ok names) (hpage : PageKnown c.relationships db name page)
    (hknown : ∀ a ∈ aggregates, a.2.known db name = true) (hlink : LinkKnown db scope n name link)
    (h : aggregatesSelect c name link page aggregates n = .ok s m) :
    s.check db scope = .ok ["aggregates"] := by
  obtain ⟨condition, k, entries, hcondition, hentries, rfl, -⟩ := aggregatesSelect_ok h
  have hself : InScope db (((BoundTable.fresh name k).label, names) :: scope) (.fresh name k) :=
    .cons_self hnames
  have hitems : ∃ keys, checkItems db (((BoundTable.fresh name k).label, names) :: scope) entries =
      .ok keys := by
    clear h
    induction hentries with
    | nil => exact ⟨[], rfl⟩
    | @cons a entry aggregates entries ha _ ih =>
      obtain ⟨keys, hkeys⟩ := ih fun a ha => hknown a (List.mem_cons_of_mem _ ha)
      exact ⟨_, checkItems_cons (ha.2.check hself (hknown a List.mem_cons_self)) hkeys⟩
  obtain ⟨keys, hkeys⟩ := hitems
  refine check_ofItems (check_pageRows hnames hcondition hpage hlink) (checkItems_cons ?_ rfl)
  rw [Context.check_tag, Expr.check, hkeys]
  rfl

theorem relatedObject_check {l : Link} {filter : Option Filter}
    (hobject : Passes db l.relationship.target object)
    (hnames : db.columns (.table l.relationship.target) = .ok names)
    (hfilter : filter.all (Filter.known c.relationships db l.relationship.target) = true)
    (hlink : LinkKnown db scope n l.relationship.target (some l))
    (h : relatedObject c l filter object n = .ok e m) : e.check db scope = .ok () := by
  obtain ⟨condition, k, o, hcondition, ho, rfl⟩ := relatedObject_ok h
  have hself : InScope db (((BoundTable.fresh l.relationship.target n).label, names) :: scope)
      (.fresh l.relationship.target n) := .cons_self hnames
  have hrow := hobject rfl ho hself (rowCondition_fills hcondition).le
  have hobj : (Expr.object [("rows", .call .jsonArray [o])]).check db
      (((BoundTable.fresh l.relationship.target n).label, names) :: scope) = .ok () := by
    simp [hrow, bind, Except.bind, pure, Except.pure]
  rw [Context.check_tag]
  exact check_subselect (check_page { filter, orderBy := [], limit := {} } hnames hcondition
    ⟨hfilter, fun o ho => (by cases ho)⟩ hlink (checkItems_cons hobj rfl))

end Pages

/-! ### Queries and fields -/

/-- The parts of a query whose names are there. -/
theorem Query.known_parts {rels : List TableRelationships} {name : String} {q : Query}
    (h : q.known rels db name = true) :
    (∃ names, db.columns (.table name) = .ok names) ∧ PageKnown rels db name (pageOf q) ∧
      (∀ a ∈ q.aggregates.getD [], a.2.known db name = true) ∧
      fieldsKnown rels db name q.fields = true := by
  obtain ⟨fields, aggregates, filter, orderBy, limit, offset⟩ := q
  simp only [Query.known, Bool.and_eq_true, List.all_eq_true] at h
  obtain ⟨⟨⟨⟨htable, hfilter⟩, horder⟩, haggregates⟩, hfields⟩ := h
  exact ⟨columns_of_hasTable htable, ⟨hfilter, horder⟩, haggregates, hfields⟩

mutual

theorem arrayQuery_check :
    ∀ (q : Query) {depth : Nat} {name : String} {link : Option Link} {n n' : Nat} {e : Expr}
      {scope : Scope}, arrayQuery c depth name link q n = .ok e n' →
      q.known c.relationships db name = true → LinkKnown db scope n name link →
      e.check db scope = .ok ()
  | ⟨fields, none, _, _, _, _⟩, _, _, _, _, _, _, _, h, hknown, hlink => by
    obtain ⟨⟨names, hnames⟩, hpage, -, hfields⟩ := Query.known_parts hknown
    exact rowsArray_check (fieldsObject_passes fields hfields) hnames hpage hlink
      (arrayQuery_rows_ok rfl h)
  | ⟨fields, some aggregates, _, _, _, _⟩, _, _, _, _, _, _, _, h, hknown, hlink => by
    obtain ⟨⟨names, hnames⟩, hpage, haggregates, hfields⟩ := Query.known_parts hknown
    obtain ⟨s, m, hs, hresult⟩ := arrayQuery_aggregates_ok rfl h
    have hsummary := check_asJson (check_subselect
      (aggregatesSelect_check hnames hpage haggregates hlink hs))
    rcases hresult with ⟨-, rfl, -⟩ | ⟨rows, -, hrows, rfl⟩
    · rw [Expr.check, checkItems_cons hsummary rfl]
      rfl
    · have hrows := check_asJson (rowsArray_check (fieldsObject_passes fields hfields) hnames hpage
        (hlink.mono (aggregatesSelect_fills hs).le) hrows)
      rw [Expr.check, checkItems_cons hsummary (checkItems_cons hrows rfl)]
      rfl

theorem objectQuery_check :
    ∀ (q : Query) {depth : Nat} {link : Link} {n n' : Nat} {e : Expr} {scope : Scope},
      objectQuery c depth link q n = .ok e n' →
      q.known c.relationships db link.relationship.target = true →
      LinkKnown db scope n link.relationship.target (some link) → e.check db scope = .ok ()
  | ⟨fields, _, _, _, _, _⟩, _, _, _, _, _, _, h, hknown, hlink => by
    obtain ⟨⟨names, hnames⟩, hpage, -, hfields⟩ := Query.known_parts hknown
    exact relatedObject_check (fieldsObject_passes fields hfields) hnames hpage.1 hlink
      (objectQuery_ok h).2

theorem fieldsObject_passes :
    ∀ (fields : Option (List (String × Field))) {depth : Nat} {name : String},
      fieldsKnown c.relationships db name fields = true →
      Passes db name fun t => fieldsObject c depth t fields
  | none, _, _, _, _, _, _, _, _, _, h, _, _ => by
    obtain ⟨rfl, -⟩ := fieldsObject_none_ok h
    rw [Context.check_tag, Expr.check, checkItems]
    rfl
  | some fields, _, _, hknown, _, _, _, _, _, hname, h, ht, hindex => by
    subst hname
    obtain ⟨entries, hentries, rfl⟩ := fieldsObject_some_ok h
    obtain ⟨keys, hkeys⟩ := fieldEntries_check fields hentries hknown ht hindex
    rw [Context.check_tag, Expr.check, hkeys]
    rfl

theorem fieldEntries_check :
    ∀ (fields : List (String × Field)) {depth : Nat} {table : BoundTable} {n n' : Nat}
      {entries : List (String × Expr)} {scope : Scope},
      fieldEntries c depth table fields n = .ok entries n' →
      membersKnown c.relationships db table.name fields = true → InScope db scope table →
      table.label.index < n → ∃ keys, checkItems db scope entries = .ok keys
  | [], _, _, _, _, _, _, h, _, _, _ => by
    obtain ⟨rfl, -⟩ := fieldEntries_nil_ok h
    exact ⟨[], rfl⟩
  | (_, field) :: fields, _, _, _, _, _, _, h, hknown, ht, hindex => by
    obtain ⟨e, m, rest, he, hrest, rfl⟩ := fieldEntries_cons_ok h
    rw [membersKnown, Bool.and_eq_true] at hknown
    have hle := (fieldValue_fills field he).le
    obtain ⟨keys, hkeys⟩ := fieldEntries_check fields hrest hknown.2 ht (by omega)
    exact ⟨_, checkItems_cons (fieldValue_check field he hknown.1 ht hindex) hkeys⟩

theorem fieldValue_check :
    ∀ (field : Field) {depth : Nat} {table : BoundTable} {n n' : Nat} {e : Expr} {scope : Scope},
      fieldValue c depth table field n = .ok e n' →
      field.known c.relationships db table.name = true → InScope db scope table →
      table.label.index < n → e.check db scope = .ok ()
  | .column _, _, _, _, _, _, _, h, hknown, ht, _ => by
    obtain ⟨rfl, -⟩ := fieldValue_column_ok h
    exact ht.check_column hknown
  | .relationship _ q, _, _, _, _, _, _, h, hknown, ht, hindex => by
    obtain ⟨r, e, hr, rfl, hresult⟩ := fieldValue_relationship_ok h
    rw [Field.known, Context.relationshipOf_of_lookup hr, Option.all_some, Bool.and_eq_true] at hknown
    refine check_asJson ?_
    rw [Context.check_tag]
    rcases hresult with ⟨-, he⟩ | ⟨-, he⟩
    · refine objectQuery_check q he hknown.2 ?_
      rintro l ⟨⟩
      exact ⟨ht, hindex, hknown.1, rfl⟩
    · refine arrayQuery_check q he hknown.2 ?_
      rintro l ⟨⟩
      exact ⟨ht, hindex, hknown.1, rfl⟩

end

end Compile

/-- The statement of a request whose names are there passes, and its column is the result. -/
theorem Request.check_compile {settings : QuerySettings} {r : Request} {plan : Plan} {db : Database}
    (h : r.compile settings = .ok plan) (hknown : r.known db = true) :
    plan.select.check db [] = .ok [plan.resultColumn] := by
  obtain ⟨e, n, hrun, hselect, hcolumn⟩ := Request.compile_ok h
  have hcheck : e.check db [] = .ok () :=
    Compile.arrayQuery_check r.query hrun hknown fun l hl => (by cases hl)
  have hitems : checkItems db [] [("data", Compile.Context.tag
      { relationships := r.relationships, settings } "query" e)] = .ok ["data"] :=
    checkItems_cons (by rw [Compile.Context.check_tag, hcheck]) rfl
  rw [hselect, hcolumn]
  exact Select.check_of_parts rfl rfl rfl rfl hitems

end DataAgent
