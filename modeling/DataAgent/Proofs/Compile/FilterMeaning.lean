import DataAgent.Proofs.Compile.Aliases
import DataAgent.Proofs.Sql.Values

/-!
# Proofs — Compile — Filter meaning

The condition that a filter is compiled to has, at each row, the truth value of the filter
(`filterCondition_eval`). Negations and connectives follow the structure of the filter. A comparison
that reaches along relationships asks for the existence of rows, one for each step of its two paths:
the conditions that join them hold exactly of the trails that the paths describe (`Walk.decides`), and
every choice of rows is tried, because the aliases of the steps are new and different
(`mem_joined_iff`, `lookup_bindAll`).
-/

namespace DataAgent

open Sql

/-! ### Rows along a path -/

/-- The rows that a path passes, one a step: each is in the target of the step's relationship and
related to the row before. -/
inductive Trail (rels : List TableRelationships) (db : Database) :
    String → Tuple → List String → List Tuple → Prop
  | nil {table : String} {row : Tuple} : Trail rels db table row [] []
  | cons {table name : String} {row next : Tuple} {path : List String} {rows : List Tuple}
      {r : Relationship} (found : relationshipOf rels table name = some r)
      (related : next ∈ r.related db row) (rest : Trail rels db r.target next path rows) :
      Trail rels db table row (name :: path) (next :: rows)

section Trails

variable {rels : List TableRelationships} {db : Database}

theorem trail_cons_iff {table name : String} {row next : Tuple} {path : List String}
    {rows : List Tuple} {r : Relationship} (found : relationshipOf rels table name = some r) :
    Trail rels db table row (name :: path) (next :: rows) ↔
      next ∈ r.related db row ∧ Trail rels db r.target next path rows := by
  constructor
  · intro h
    cases h with
    | cons found' related rest =>
      obtain rfl : _ = r := Option.some.inj (found'.symm.trans found)
      exact ⟨related, rest⟩
  · rintro ⟨related, rest⟩
    exact .cons found related rest

/-- The rows at the end of a path are the last rows of its trails. -/
theorem mem_rowsAlong_iff {last : Tuple} : ∀ {path : List String} {table : String} {row : Tuple},
    last ∈ rowsAlong rels db table row path ↔
      ∃ rows, Trail rels db table row path rows ∧ rows.getLastD row = last
  | [], _, _ => by
    constructor
    · intro h
      exact ⟨[], .nil, (List.mem_singleton.1 h).symm⟩
    · rintro ⟨_, ⟨⟩, rfl⟩
      exact List.mem_singleton.2 rfl
  | name :: path, table, row => by
    rw [rowsAlong]
    cases found : relationshipOf rels table name with
    | none =>
      constructor
      · intro h
        cases h
      · rintro ⟨_, h, _⟩
        cases h with
        | cons found' _ _ => cases found.symm.trans found'
    | some r =>
      simp only [List.mem_flatMap, mem_rowsAlong_iff]
      constructor
      · rintro ⟨next, related, rows, rest, hlast⟩
        exact ⟨next :: rows, .cons found related rest, by rwa [List.getLastD_cons]⟩
      · rintro ⟨_ | ⟨next, rows⟩, h, hlast⟩
        · cases h
        · obtain ⟨related, rest⟩ := (trail_cons_iff found).1 h
          exact ⟨next, related, rows, rest, by rwa [List.getLastD_cons] at hlast⟩

theorem Filter.truth_of_probe {filter : Filter} {p : Probe} (h : filter.probe = some p)
    (table : String) (row : Tuple) :
    filter.truth rels db table row = p.truth rels db table row := by
  cases filter with
  | unary | binary | list => rw [Filter.truth, h, Option.bind_some]
  | and | or | not => cases h

/-- A test along paths is never unknown, and it is true when trails lead to rows that pass it. -/
theorem Probe.truth_of_path {p : Probe} (h : p.left ≠ [] ∨ p.right ≠ []) (table : String)
    (row : Tuple) :
    p.truth rels db table row ≠ none ∧ (p.truth rels db table row = some true ↔
      ∃ ls rs, Trail rels db table row p.left ls ∧ Trail rels db table row p.right rs ∧
        p.test (ls.getLastD row) (rs.getLastD row) = some true) := by
  have hpaths : ¬ (p.left = [] ∧ p.right = []) := by
    rintro ⟨hl, hr⟩
    exact h.elim (· hl) (· hr)
  rw [Probe.truth, if_neg hpaths]
  refine ⟨Option.some_ne_none _, ?_⟩
  simp only [Option.some.injEq, List.any_eq_true, beq_iff_eq, mem_rowsAlong_iff]
  constructor
  · rintro ⟨_, ⟨ls, hl, rfl⟩, _, ⟨rs, hr, rfl⟩, hpass⟩
    exact ⟨ls, rs, hl, hr, hpass⟩
  · rintro ⟨ls, rs, hl, hr, hpass⟩
    exact ⟨_, ⟨ls, hl, rfl⟩, _, ⟨rs, hr, rfl⟩, hpass⟩

end Trails

namespace Compile

variable {c : Context} {db : Database} {f : Frame}

/-! ### Rows bound to aliases -/

/-- The rows of joined tables are all choices of a row from each table. -/
theorem mem_join_iff {env : Env} : ∀ {tables : List BoundTable} {envs : List Env},
    env ∈ db.join envs (tables.map BoundTable.join) ↔
      ∃ first ∈ envs, ∃ rows, List.Forall₂ (fun t row => row ∈ db.rowsOf t.name) tables rows ∧
        env = first ++ bindAll tables rows
  | [], envs => by
    simp [Database.join, bindAll]
  | t :: tables, envs => by
    have hbind : ∀ e, e ∈ db.bind t.join.table t.join.label ↔
        ∃ row ∈ db.rowsOf t.name, e = [(t.label, row)] := by
      intro e
      simp [Database.bind, Database.rowsOf, BoundTable.join, TableRef.tableName, eq_comm]
    simp only [List.map_cons, Database.join, mem_join_iff, List.mem_flatMap, List.mem_map, hbind,
      List.forall₂_cons_left_iff]
    constructor
    · rintro ⟨_, ⟨first, hfirst, _, ⟨row, hrow, rfl⟩, rfl⟩, rows, hrows, rfl⟩
      exact ⟨first, hfirst, row :: rows, ⟨row, rows, hrow, hrows, rfl⟩, by simp [bindAll]⟩
    · rintro ⟨first, hfirst, _, ⟨row, rows, hrow, hrows, rfl⟩, rfl⟩
      exact ⟨_, ⟨first, hfirst, _, ⟨row, hrow, rfl⟩, rfl⟩, rows, hrows, by simp [bindAll]⟩

/-- The rows of the tables of a select without a condition. -/
theorem mem_joined_iff {env : Env} {first : BoundTable} {others : List BoundTable} :
    env ∈ db.join (db.bind (.table first.name) first.label) (others.map BoundTable.join) ↔
      ∃ rows, List.Forall₂ (fun t row => row ∈ db.rowsOf t.name) (first :: others) rows ∧
        env = bindAll (first :: others) rows := by
  have h : env ∈ db.join [[]] ((first :: others).map BoundTable.join) ↔ _ := mem_join_iff
  simpa [Database.join, BoundTable.join] using h

/-- Whether tables have rows that meet a condition together. -/
theorem eval_existsRow_bindAll {first : BoundTable} {others : List BoundTable} {condition : Expr}
    (h : ∀ rows, List.Forall₂ (fun t row => row ∈ db.rowsOf t.name) (first :: others) rows →
      ∃ P, condition.Decides db { env := bindAll (first :: others) rows ++ f.env } P) :
    ∃ b, (Expr.existsRow
        { list := .one
          source := some first.source
          joins := others.map BoundTable.join
          condition }).eval db f = .ok (.ofTruth (some b)) ∧
      (b = true ↔ ∃ rows, List.Forall₂ (fun t row => row ∈ db.rowsOf t.name) (first :: others) rows ∧
        condition.eval db { env := bindAll (first :: others) rows ++ f.env } =
          .ok (.ofTruth (some true))) := by
  let select : Select :=
    { list := .one, source := some first.source, joins := others.map BoundTable.join, condition }
  have hcond : ∀ row ∈ db.join (db.bind (.table first.name) first.label) select.joins,
      ∃ P, select.condition.Decides db { env := row ++ f.env } P := fun row hrow => by
    obtain ⟨rows, hrows, rfl⟩ := mem_joined_iff.1 hrow
    exact h rows hrows
  obtain ⟨b, hb, hiff⟩ := Expr.eval_existsRow rfl rfl rfl rfl hcond
  refine ⟨b, hb, hiff.trans ⟨?_, ?_⟩⟩
  · rintro ⟨row, hrow, heval⟩
    obtain ⟨rows, hrows, rfl⟩ := mem_joined_iff.1 hrow
    exact ⟨rows, hrows, heval⟩
  · rintro ⟨rows, hrows, heval⟩
    exact ⟨_, mem_joined_iff.2 ⟨rows, hrows, rfl⟩, heval⟩

/-! ### Walks -/

theorem Context.eval_tag (c : Context) (rule : String) (e : Expr) :
    (c.tag rule e).eval db f = e.eval db f := by
  unfold Context.tag
  split
  · rw [Expr.eval]
  · rfl

theorem Context.relationshipOf_of_lookup {table name : String} {r : Relationship}
    (h : c.lookup table name = .ok r) : relationshipOf c.relationships table name = some r := by
  unfold Context.lookup at h
  unfold relationshipOf
  split at h
  · rename_i r' hr
    cases h
    exact hr
  · cases h

theorem BoundTable.eval_column {t : BoundTable} {row : Tuple} (h : f.env.lookup t.label = some row)
    (name : String) : (t.column name).eval db f = .ok (row.get name) :=
  Expr.eval_column h name

/-- The condition that joins two tables holds of the rows that are related. -/
theorem joinCondition_decides {source target : BoundTable} {name : String} {r : Relationship}
    {e : Expr} {x y : Tuple} (h : joinCondition source target name r = .ok e)
    (hx : f.env.lookup source.label = some x) (hy : f.env.lookup target.label = some y) :
    e.Decides db f (r.relates x y = true) := by
  rw [joinCondition_ok h]
  have hpair : ∀ pair ∈ r.mapping,
      (Expr.compare .equal (source.column pair.1) (target.column pair.2)).Decides db f
        ((x.get pair.1).compare .equal (y.get pair.2) = some true) := fun pair _ =>
    .of_eval (Expr.eval_compare (BoundTable.eval_column hx _) (BoundTable.eval_column hy _))
  refine (Expr.decides_always.foldl_conj hpair).congr ?_
  simp [Relationship.relates]

section Walks

variable {table last : BoundTable} {path : List String} {n : Nat} {tables : List BoundTable}
  {joins : List Expr}

theorem Walk.path_eq_nil_iff (h : Walk c table path n tables joins last) :
    path = [] ↔ tables = [] := by
  cases h <;> simp

theorem Walk.last_eq_of_nil (h : Walk c table path n tables joins last) (ht : tables = []) :
    last = table := by
  cases h with
  | nil => rfl
  | cons => cases ht

/-- The table at the end of a walk is bound to the last row on the way. -/
theorem Walk.lookup_last (h : Walk c table path n tables joins last) :
    ∀ {x : Tuple} {rows : List Tuple}, f.env.lookup table.label = some x →
      List.Forall₂ (fun t row => f.env.lookup t.label = some row) tables rows →
      f.env.lookup last.label = some (rows.getLastD x) := by
  induction h with
  | nil =>
    rintro x _ hx ⟨⟩
    exact hx
  | cons _ _ _ ih =>
    rintro x _ _ (_ | ⟨hnext, hrest⟩)
    rw [List.getLastD_cons]
    exact ih hnext hrest

/-- The conditions of a walk hold when the rows bound to its tables are a trail of its path. -/
theorem Walk.decides (h : Walk c table path n tables joins last) :
    ∀ {x : Tuple} {rows : List Tuple} {e : Expr} {P : Prop},
      f.env.lookup table.label = some x →
      List.Forall₂ (fun t row => f.env.lookup t.label = some row ∧ row ∈ db.rowsOf t.name)
        tables rows →
      e.Decides db f P →
      (joins.foldl .conj e).Decides db f (P ∧ Trail c.relationships db table.name x path rows) := by
  induction h with
  | nil =>
    rintro x _ e P _ ⟨⟩ he
    exact he.congr ⟨fun hp => ⟨hp, .nil⟩, And.left⟩
  | @cons table _ name path n r join _ _ found joined _ ih =>
    rintro x _ e P hx (_ | ⟨⟨hnext, hmem⟩, hrest⟩) he
    have hjoin : join.Decides db f (r.relates x _ = true) := joinCondition_decides joined hx hnext
    refine (ih hnext hrest (he.conj hjoin)).congr ?_
    rw [trail_cons_iff (Context.relationshipOf_of_lookup found), Relationship.related,
      List.mem_filter]
    exact ⟨fun h => ⟨h.1.1, ⟨hmem, h.1.2⟩, h.2⟩, fun h => ⟨⟨h.1, h.2.1.2⟩, h.2.2⟩⟩

/-- The rows of a trail are rows of the tables of the walk. -/
theorem Walk.rowsOf_of_trail (h : Walk c table path n tables joins last) :
    ∀ {x : Tuple} {rows : List Tuple}, Trail c.relationships db table.name x path rows →
      List.Forall₂ (fun t row => row ∈ db.rowsOf t.name) tables rows := by
  induction h with
  | nil =>
    rintro _ _ ⟨⟩
    exact .nil
  | cons found _ _ ih =>
    rintro _ (_ | ⟨next, rows⟩) htrail
    · cases htrail
    · obtain ⟨related, rest⟩ := (trail_cons_iff (Context.relationshipOf_of_lookup found)).1 htrail
      exact .cons (List.mem_filter.1 related).1 (ih rest)

end Walks

/-! ### Comparisons -/

/-- The constant of a scalar is the value of the scalar. -/
theorem ofValue_of_scalar {column : String} : ∀ {json : Json} {v : Value},
    scalar column json = .ok v → Datum.ofCell (.ofValue v) = json.datum
  | .null, _, h | .bool _, _, h | .str _, _, h | .num (.double _), _, h => by
    cases h
    rfl
  | .num (.int n), _, h => by
    cases h
    by_cases hn : -Int.pow 2 63 ≤ n ∧ n < Int.pow 2 63
    · have hfits : fitsWord n = true := by simpa [fitsWord] using hn
      rw [if_pos hn, Cell.ofValue, Json.datum, hfits]
    · have hfits : fitsWord n = false := by simpa [fitsWord] using hn
      rw [if_neg hn, Cell.ofValue, Json.datum, hfits]
      rfl
  | .arr _, _, h | .obj _, _, h => by cases h

theorem evalList_options {column : String} {values : List Json} {items : List Expr}
    (h : options c column values = .ok items) :
    evalList db f items = .ok (values.map Json.datum) := by
  replace h := options_ok h
  induction h with
  | nil => rfl
  | cons hitem _ ih =>
    obtain ⟨v, hv, rfl⟩ := hitem
    rw [evalList, ih, Context.eval_tag, Expr.eval, List.map_cons, ← ofValue_of_scalar hv]
    rfl

theorem lookup_comparisonNames {operator column : String} {op : Comparison}
    (h : comparisonOf operator column = .ok op) : comparisonNames.lookup operator = some op := by
  unfold comparisonOf at h
  split at h <;> cases h <;> rfl

/-- A comparison is the test of its filter, at the rows at the ends of the paths. -/
theorem Comparing.test {l r : BoundTable} {filter : Filter} {left right : List String}
    {comparison : Expr} (h : Comparing c l r filter left right comparison) :
    ∃ test : Tuple → Tuple → Option Bool, filter.probe = some { left, right, test } ∧
      ∀ db (f : Frame) x y, f.env.lookup l.label = some x → f.env.lookup r.label = some y →
        comparison.eval db f = .ok (.ofTruth (test x y)) := by
  cases h with
  | isNull column =>
    refine ⟨_, by rw [Filter.probe, if_pos rfl], fun db f x y hx _ => ?_⟩
    rw [Expr.eval, Context.eval_tag, BoundTable.eval_column hx]
    rfl
  | @value operator column json op v named scalar =>
    refine ⟨_, by rw [Filter.probe, lookup_comparisonNames named]; rfl, fun db f x y hx _ => ?_⟩
    refine Expr.eval_compare ?_ ?_
    · rw [Context.eval_tag, BoundTable.eval_column hx]
    · rw [Context.eval_tag, Expr.eval, Operand.value, ← ofValue_of_scalar scalar]
      rfl
  | @column operator column other op named =>
    refine ⟨_, by rw [Filter.probe, lookup_comparisonNames named]; rfl, fun db f x y hx hy => ?_⟩
    refine Expr.eval_compare ?_ ?_
    · rw [Context.eval_tag, BoundTable.eval_column hx]
    · rw [Context.eval_tag, Context.eval_tag, BoundTable.eval_column hy]
      rfl
  | @list column values items scalars =>
    refine ⟨_, by rw [Filter.probe, if_pos rfl], fun db f x y hx _ => ?_⟩
    have hitems := options_ok scalars
    split
    · rename_i hempty
      obtain rfl := List.isEmpty_iff.1 hempty
      obtain rfl := List.forall₂_nil_right_iff.1 hitems
      rfl
    · rw [Expr.eval, Context.eval_tag, BoundTable.eval_column hx, evalList_options scalars]
      simp only [bind, Except.bind, pure, Except.pure]
      rw [← eitherHolds_some_false_left (someHolds _), ← foldl_eitherHolds, List.foldl_map,
        List.foldl_map]

theorem forall₂_append_left {α β : Type} {R : α → β → Prop} {as as' : List α} {bs : List β}
    (h : List.Forall₂ R (as ++ as') bs) :
    ∃ cs ds, bs = cs ++ ds ∧ List.Forall₂ R as cs ∧ List.Forall₂ R as' ds :=
  ⟨bs.take as.length, bs.drop as.length, (List.take_append_drop ..).symm,
    (List.forall₂_take_append _ _ _ h.flip).flip, (List.forall₂_drop_append _ _ _ h.flip).flip⟩

namespace ComparisonRun

variable {table : BoundTable} {filter : Filter} {n n' : Nat} {e : Expr} {x : Tuple}

/-- The condition on the rows of these tables. -/
def condition (run : ComparisonRun c table filter n n' e) : Expr :=
  Expr.conj ((run.leftJoins ++ run.rightJoins).foldl .conj .always) run.comparison

section Test

-- the comparison is a test of the rows at the ends of the two paths
variable (run : ComparisonRun c table filter n n' e) {test : Tuple → Tuple → Option Bool}
  (hfresh : table.label.index < n ∨ n' ≤ table.label.index) (hx : f.env.lookup table.label = some x)
  (htest : ∀ (f : Frame) x y, f.env.lookup run.left.label = some x →
    f.env.lookup run.right.label = some y → run.comparison.eval db f = .ok (.ofTruth (test x y)))

include hfresh hx htest

/-- The condition holds of rows that are trails of the two paths and the last of which pass the
test. -/
theorem condition_decides {ls rs : List Tuple}
    (hls : List.Forall₂ (fun t row => row ∈ db.rowsOf t.name) run.leftTables ls)
    (hrs : List.Forall₂ (fun t row => row ∈ db.rowsOf t.name) run.rightTables rs) :
    run.condition.Decides db { env := bindAll run.tables (ls ++ rs) ++ f.env }
      (Trail c.relationships db table.name x run.leftPath ls ∧
        Trail c.relationships db table.name x run.rightPath rs ∧
        test (ls.getLastD x) (rs.getLastD x) = some true) := by
  have hsource : (bindAll run.tables (ls ++ rs) ++ f.env).lookup table.label = some x := by
    rw [lookup_bindAll_of_notMem _ (run.notMem hfresh), hx]
  obtain ⟨cs, ds, heq, hleft, hright⟩ := forall₂_append_left
    (lookup_bindAll f.env (List.rel_append hls hrs) run.nodup)
  obtain ⟨rfl, rfl⟩ := List.append_inj heq (hls.length_eq.symm.trans hleft.length_eq)
  have hcompare := htest { env := bindAll run.tables (ls ++ rs) ++ f.env } _ _
    (run.leftWalk.lookup_last hsource (hleft.imp fun _ _ => And.left))
    (run.rightWalk.lookup_last hsource (hright.imp fun _ _ => And.left))
  rw [condition, List.foldl_append]
  refine ((run.rightWalk.decides hsource hright (run.leftWalk.decides hsource hleft
    Expr.decides_always)).conj (.of_eval hcompare)).congr ?_
  simp only [true_and, and_assoc]

/-- Some rows of the tables meet the condition when rows at the ends of the two paths pass the test. -/
theorem exists_rows_iff :
    (∃ rows, List.Forall₂ (fun t row => row ∈ db.rowsOf t.name) run.tables rows ∧
      run.condition.eval db { env := bindAll run.tables rows ++ f.env } = .ok (.ofTruth (some true))) ↔
    ∃ l ∈ rowsAlong c.relationships db table.name x run.leftPath,
      ∃ r ∈ rowsAlong c.relationships db table.name x run.rightPath, test l r = some true := by
  simp only [mem_rowsAlong_iff]
  constructor
  · rintro ⟨rows, hrows, heval⟩
    obtain ⟨ls, rs, rfl, hls, hrs⟩ := forall₂_append_left hrows
    obtain ⟨hleft, hright, hpass⟩ := (run.condition_decides hfresh hx htest hls hrs).eval_iff.1 heval
    exact ⟨_, ⟨ls, hleft, rfl⟩, _, ⟨rs, hright, rfl⟩, hpass⟩
  · rintro ⟨_, ⟨ls, hleft, rfl⟩, _, ⟨rs, hright, rfl⟩, hpass⟩
    have hls := run.leftWalk.rowsOf_of_trail hleft
    have hrs := run.rightWalk.rowsOf_of_trail hright
    exact ⟨ls ++ rs, List.rel_append hls hrs,
      (run.condition_decides hfresh hx htest hls hrs).eval_iff.2 ⟨hleft, hright, hpass⟩⟩

end Test

/-- A comparison without paths is the comparison itself, at the row at hand. -/
theorem of_tables_eq_nil (run : ComparisonRun c table filter n n' e) (h : run.tables = []) :
    e = run.comparison ∧ run.leftPath = [] ∧ run.rightPath = [] ∧ run.left = table ∧
      run.right = table := by
  obtain ⟨hl, hr⟩ := List.append_eq_nil_iff.1 h
  refine ⟨run.result.trans ?_, run.leftWalk.path_eq_nil_iff.2 hl, run.rightWalk.path_eq_nil_iff.2 hr,
    run.leftWalk.last_eq_of_nil hl, run.rightWalk.last_eq_of_nil hr⟩
  rw [tables] at h
  simp only [Reach.existence, h]

/-- A comparison that reaches tables asks whether rows of them meet its condition. -/
theorem of_tables_eq_cons (run : ComparisonRun c table filter n n' e) {first : BoundTable}
    {others : List BoundTable} (h : run.tables = first :: others) :
    e = c.tag "exists" (.existsRow
      { list := .one
        source := some first.source
        joins := others.map BoundTable.join
        condition := run.condition }) ∧ ¬ (run.leftPath = [] ∧ run.rightPath = []) := by
  refine ⟨run.result.trans ?_, ?_⟩
  · rw [tables] at h
    simp only [Reach.existence, h, condition]
  · rw [run.leftWalk.path_eq_nil_iff, run.rightWalk.path_eq_nil_iff, ← List.append_eq_nil_iff]
    exact fun hnil => List.cons_ne_nil _ _ (h.symm.trans hnil)

/-- A comparison has the truth of its filter: without paths that of the test itself, else whether
trails of the paths lead to rows that pass it. -/
theorem eval (run : ComparisonRun c table filter n n' e)
    (hfresh : table.label.index < n ∨ n' ≤ table.label.index)
    (hx : f.env.lookup table.label = some x) :
    e.eval db f = .ok (.ofTruth (filter.truth c.relationships db table.name x)) := by
  obtain ⟨test, hprobe, htest⟩ := run.comparing.test
  rw [Filter.truth_of_probe hprobe, Probe.truth]
  cases htables : run.tables with
  | nil =>
    obtain ⟨he, hl, hr, hleft, hright⟩ := run.of_tables_eq_nil htables
    rw [if_pos ⟨hl, hr⟩, ← htest db f x x (by rw [hleft, hx]) (by rw [hright, hx]), ← he]
  | cons first others =>
    obtain ⟨he, hpaths⟩ := run.of_tables_eq_cons htables
    obtain ⟨b, hb, hiff⟩ := eval_existsRow_bindAll fun rows hrows => by
      rw [← htables] at hrows ⊢
      obtain ⟨ls, rs, rfl, hls, hrs⟩ := forall₂_append_left hrows
      exact ⟨_, run.condition_decides hfresh hx (htest db) hls hrs⟩
    rw [← htables, run.exists_rows_iff hfresh hx (htest db)] at hiff
    have hany : ((rowsAlong c.relationships db table.name x run.leftPath).any fun l =>
        (rowsAlong c.relationships db table.name x run.rightPath).any fun r =>
          test l r == some true) = b := by
      rw [Bool.eq_iff_iff, hiff]
      simp only [List.any_eq_true, beq_iff_eq]
    rw [if_neg hpaths, hany, ← hb, ← c.eval_tag "exists" (.existsRow _)]
    exact congrArg _ he

end ComparisonRun

/-! ### Filters -/

theorem disjunction_eval {es : List Expr} {ts : List (Option Bool)}
    (h : List.Forall₂ (fun e t => e.eval db f = .ok (.ofTruth t)) es ts) :
    (disjunction es).eval db f = .ok (.ofTruth (someHolds ts)) := by
  cases h with
  | nil => rfl
  | cons hfirst hrest =>
    rw [someHolds_cons]
    exact Expr.eval_foldl_or hrest hfirst

mutual

/-- The condition of a filter has the truth of the filter. -/
theorem filterCondition_eval {table : BoundTable} {x : Tuple}
    (hx : f.env.lookup table.label = some x) :
    ∀ (filter : Filter) {n n' : Nat} {e : Expr}, filterCondition c table filter n = .ok e n' →
      (table.label.index < n ∨ n' ≤ table.label.index) →
      e.eval db f = .ok (.ofTruth (filter.truth c.relationships db table.name x))
  | .and filters, _, _, _, h, hfresh => by
    obtain ⟨es, hes, rfl⟩ := filterCondition_and_ok h
    have hall := Expr.eval_foldl_conj (filterConditions_eval hx filters hes hfresh) Expr.eval_always
    rwa [bothHold_some_true_left] at hall
  | .or filters, _, _, _, h, hfresh => by
    obtain ⟨es, hes, rfl⟩ := filterCondition_or_ok h
    exact disjunction_eval (filterConditions_eval hx filters hes hfresh)
  | .not filter, _, _, _, h, hfresh => by
    obtain ⟨e', he, rfl⟩ := filterCondition_not_ok h
    rw [Expr.eval, filterCondition_eval hx filter he hfresh, Filter.truth]
    simp [bind, Except.bind, pure, Except.pure]
  | .unary _ _, _, _, _, h, hfresh => (filterCondition_unary_ok h).elim fun run => run.eval hfresh hx
  | .binary _ _ _, _, _, _, h, hfresh => (filterCondition_binary_ok h).elim fun run => run.eval hfresh hx
  | .list _ _ _, _, _, _, h, hfresh => (filterCondition_list_ok h).elim fun run => run.eval hfresh hx

/-- The conditions of filters have the truths of the filters. -/
theorem filterConditions_eval {table : BoundTable} {x : Tuple}
    (hx : f.env.lookup table.label = some x) :
    ∀ (filters : List Filter) {n n' : Nat} {es : List Expr},
      filterConditions c table filters n = .ok es n' →
      (table.label.index < n ∨ n' ≤ table.label.index) →
      List.Forall₂ (fun e t => e.eval db f = .ok (.ofTruth t)) es
        (Filter.truths c.relationships db table.name x filters)
  | [], _, _, _, h, _ => by
    obtain ⟨rfl, rfl⟩ := filterConditions_nil_ok h
    exact .nil
  | filter :: filters, _, _, _, h, hfresh => by
    obtain ⟨e, es, m, he, hes, rfl⟩ := filterConditions_cons_ok h
    have hle := (filterCondition_fills filter he).le
    have hle' := (filterConditions_fills filters hes).le
    exact .cons (filterCondition_eval hx filter he (by omega))
      (filterConditions_eval hx filters hes (by omega))

end

/-- **Filters keep their meaning.** The condition that a filter is compiled to evaluates, wherever
the alias of its table is bound to a row, to the truth of the filter at that row. If the filter compares
along a path, that is never unknown: it is true when trails of its two paths lead to rows of which the
comparison is true, and false otherwise. -/
theorem eval_filterCondition_eq_truth {table : BoundTable} {filter : Filter} {n n' : Nat} {e : Expr}
    {row : Tuple} (h : filterCondition c table filter n = .ok e n')
    (hfresh : table.label.index < n ∨ n' ≤ table.label.index)
    (hrow : f.env.lookup table.label = some row) :
    e.eval db f = .ok (.ofTruth (filter.truth c.relationships db table.name row)) ∧
      ∀ p, filter.probe = some p → p.left ≠ [] ∨ p.right ≠ [] →
        filter.truth c.relationships db table.name row ≠ none ∧
        (filter.truth c.relationships db table.name row = some true ↔
          ∃ ls rs, Trail c.relationships db table.name row p.left ls ∧
            Trail c.relationships db table.name row p.right rs ∧
            p.test (ls.getLastD row) (rs.getLastD row) = some true) := by
  refine ⟨filterCondition_eval hrow filter h hfresh, fun p hprobe hpath => ?_⟩
  rw [Filter.truth_of_probe hprobe]
  exact Probe.truth_of_path hpath table.name row

/-- The nameless artist has an album and its artist has no name: the comparison is false, not
unknown. -/
theorem eval_titleBeforeName_eq_false :
    ∃ e, filterCondition { relationships := Music.relationships, settings := {} }
        (.fresh "Artist" 0) Music.titleBeforeName 1 = .ok e 4 ∧
      e.eval Music.database { env := [({ name := "Artist", index := 0 }, Music.nameless)] } =
        .ok (.ofTruth (some false)) := by
  have hrun : filterCondition { relationships := Music.relationships, settings := {} }
      (.fresh "Artist" 0) Music.titleBeforeName 1 = .ok _ 4 := rfl
  have hrow : (Frame.env { env := [({ name := "Artist", index := 0 }, Music.nameless)] }).lookup
      (BoundTable.fresh "Artist" 0).label = some Music.nameless := rfl
  exact ⟨_, hrun, And.left (eval_filterCondition_eq_truth hrun (.inl Nat.zero_lt_one) hrow)⟩

end Compile

end DataAgent
