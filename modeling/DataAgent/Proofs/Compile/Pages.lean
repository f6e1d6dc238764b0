import DataAgent.Proofs.Compile.Agreement
import DataAgent.Proofs.Compile.Aliases
import DataAgent.Proofs.Sql.Renumber

/-!
# Proofs — Compile — Pages

The rows and the aggregates of a query are over the same page. A query that asks for both has its page
compiled twice, each time with aliases of its own, and the clauses of the two selects differ in the
indices of these aliases only (`arrayQuery_pages_renumber`).

The compiler does not look at indices. A run that starts `d` aliases further on gives the same but for
the indices from where it starts, which are `d` more (`shift`); the aliases that were bound before, such
as that of the parent row, stay.
-/

namespace DataAgent

namespace Compile

open Sql

/-! ### Shifts -/

/-- The index moved up by `d`, if it is one of those from `n` on. -/
def shift (n d i : Nat) : Nat := if i < n then i else i + d

variable {n d : Nat}

theorem shift_of_lt {i : Nat} (h : i < n) : shift n d i = i := if_pos h

theorem shift_of_le {i : Nat} (h : n ≤ i) : shift n d i = i + d := if_neg (Nat.not_lt.2 h)

theorem bijOn_shift (n d k : Nat) : Set.BijOn (shift n d) (Set.Ico n k) (Set.Ico (n + d) (k + d)) := by
  refine ⟨fun i hi => ?_, fun i hi j hj hij => ?_, fun i hi => ⟨i - d, ?_, ?_⟩⟩
  · rw [shift_of_le hi.1]
    exact ⟨Nat.add_le_add_right hi.1 d, Nat.add_lt_add_right hi.2 d⟩
  · rw [shift_of_le hi.1, shift_of_le hj.1] at hij
    exact Nat.add_right_cancel hij
  · have hle := hi.1
    have hlt := hi.2
    exact ⟨by omega, by omega⟩
  · have hle := hi.1
    rw [shift_of_le (by omega)]
    omega

/-- A counter from `n` on, and the one `d` further. -/
def Ahead (n d i j : Nat) : Prop := n ≤ i ∧ j = i + d

/-- The table with the index of its alias replaced. -/
def BoundTable.renumber (σ : Nat → Nat) (t : BoundTable) : BoundTable :=
  { t with label := t.label.renumber σ }

theorem BoundTable.renumber_fresh (name : String) {i : Nat} (h : n ≤ i) :
    (fresh name i).renumber (shift n d) = fresh name (i + d) := by
  simp [renumber, fresh, TableAlias.renumber, shift_of_le h]

theorem bindTable_shift (name : String) :
    Agree (Ahead n d) (fun t t' => t.renumber (shift n d) = t') (bindTable name) (bindTable name) := by
  rintro i _ ⟨hi, rfl⟩
  exact .ok (BoundTable.renumber_fresh name hi) ⟨Nat.le_succ_of_le hi, Nat.add_right_comm i d 1⟩

/-! ### Filters -/

section Filters

variable {c : Context} (σ : Nat → Nat)

@[simp] theorem Context.renumber_tag (rule : String) (e : Expr) :
    (c.tag rule e).renumber σ = c.tag rule (e.renumber σ) := by
  unfold Context.tag
  split <;> rfl

/-- The conditions that relate two rows, with the aliases of both renumbered. -/
theorem joinCondition_renumber (source target : BoundTable) (name : String) (r : Relationship) :
    joinCondition (source.renumber σ) (target.renumber σ) name r =
      (joinCondition source target name r).map (Expr.renumber σ) := by
  have hfold (mapping : List (String × String)) (e : Expr) :
      mapping.foldl (fun e pair => e.conj (.compare .equal ((source.renumber σ).column pair.1)
        ((target.renumber σ).column pair.2))) (e.renumber σ) =
      (mapping.foldl (fun e pair => e.conj (.compare .equal (source.column pair.1)
        (target.column pair.2))) e).renumber σ := by
    induction mapping generalizing e with
    | nil => rfl
    | cons pair mapping ih =>
      rw [List.foldl_cons, List.foldl_cons, ← ih, Expr.renumber_conj]
      rfl
  unfold joinCondition
  split
  · rfl
  · exact congrArg Except.ok (hfold r.mapping .always)

/-- What a comparison reaches, renumbered. -/
def Reach.renumber (reach : Reach) : Reach where
  tables := reach.tables.map (BoundTable.renumber σ)
  joins := reach.joins.renumber σ

theorem Reach.existence_renumber (reach : Reach) (comparison : Expr) :
    (reach.existence c comparison).renumber σ =
      (reach.renumber σ).existence c (comparison.renumber σ) := by
  obtain ⟨tables, joins⟩ := reach
  cases tables with
  | nil => rfl
  | cons first others =>
    simp only [Reach.existence, Reach.renumber, List.map_cons, Context.renumber_tag, Expr.renumber,
      Select.renumber, Expr.renumber_conj, List.map_map]
    rfl

theorem disjunction_renumber (es : List Expr) :
    (disjunction es).renumber σ = disjunction (listRenumber σ es) := by
  cases es with
  | nil => rfl
  | cons e es => exact Expr.renumber_foldl_or σ es e

/-- Values have no aliases. -/
theorem options_renumber {column : String} {values : List Json} {items : List Expr}
    (h : options c column values = .ok items) : listRenumber σ items = items := by
  replace h := options_ok h
  induction h with
  | nil => rfl
  | cons hitem _ ih =>
    obtain ⟨v, -, rfl⟩ := hitem
    rw [listRenumber, ih, Context.renumber_tag]
    rfl

end Filters

section Runs

variable {c : Context}

theorem followPath_shift : ∀ (path : List String) (table : BoundTable) (reach : Reach),
    Agree (Ahead n d)
      (fun p p' => p.1.renumber (shift n d) = p'.1 ∧ p.2.renumber (shift n d) = p'.2)
      (followPath c table path reach)
      (followPath c (table.renumber (shift n d)) path (reach.renumber (shift n d)))
  | [], _, _ => .pure ⟨rfl, rfl⟩
  | name :: path, table, reach => by
    refine Agree.bind (R := Eq) (.ofExcept fun _ _ => rfl) ?_
    rintro r _ rfl
    refine (bindTable_shift r.target).bind ?_
    rintro target _ rfl
    rw [joinCondition_renumber]
    refine Agree.bind (R := fun e e' => e.renumber (shift n d) = e') (.ofExcept_map fun _ _ => rfl) ?_
    rintro join _ rfl
    have hrest := followPath_shift path target
      { tables := reach.tables ++ [target], joins := reach.joins.conj join }
    simpa only [Reach.renumber, List.map_append, List.map_cons, List.map_nil, Expr.renumber_conj]
      using hrest

theorem columnAt_shift (table : BoundTable) (column : ColumnPath) (reach : Reach) :
    Agree (Ahead n d)
      (fun p p' => p.1.renumber (shift n d) = p'.1 ∧ p.2.renumber (shift n d) = p'.2)
      (columnAt c table column reach)
      (columnAt c (table.renumber (shift n d)) column (reach.renumber (shift n d))) := by
  unfold columnAt
  refine Agree.ite Iff.rfl (.throw _) ((followPath_shift column.path table reach).map ?_)
  rintro ⟨last, reach⟩ ⟨_, _⟩ ⟨rfl, rfl⟩
  exact ⟨Context.renumber_tag _ _ _, rfl⟩

theorem operandAt_shift (table : BoundTable) (column : String) (reach : Reach) (operand : Operand) :
    Agree (Ahead n d)
      (fun p p' => p.1.renumber (shift n d) = p'.1 ∧ p.2.renumber (shift n d) = p'.2)
      (operandAt c table column reach operand)
      (operandAt c (table.renumber (shift n d)) column (reach.renumber (shift n d)) operand) := by
  cases operand with
  | column other =>
    refine (columnAt_shift table other reach).map ?_
    rintro ⟨e, reach⟩ ⟨_, _⟩ ⟨rfl, rfl⟩
    exact ⟨Context.renumber_tag _ _ _, rfl⟩
  | scalar json =>
    refine Agree.map (R := Eq) (.ofExcept fun _ _ => rfl) ?_
    rintro v _ rfl
    exact ⟨Context.renumber_tag _ _ _, rfl⟩

mutual

theorem filterCondition_shift (table : BoundTable) : ∀ filter : Filter,
    Agree (Ahead n d) (fun e e' => e.renumber (shift n d) = e') (filterCondition c table filter)
      (filterCondition c (table.renumber (shift n d)) filter)
  | .and filters => by
    refine (filterConditions_shift table filters).map ?_
    rintro es _ rfl
    exact Expr.renumber_foldl_conj _ es .always
  | .or filters => by
    refine (filterConditions_shift table filters).map ?_
    rintro es _ rfl
    exact disjunction_renumber _ es
  | .not filter => by
    refine (filterCondition_shift table filter).map ?_
    rintro e _ rfl
    rfl
  | .unary operator column => by
    refine Agree.bind (R := Eq) (.ofExcept fun _ _ => rfl) fun _ _ _ => ?_
    refine (columnAt_shift table column {}).map ?_
    rintro ⟨e, reach⟩ ⟨_, _⟩ ⟨rfl, rfl⟩
    exact Reach.existence_renumber _ reach (.isNull e)
  | .binary operator column operand => by
    refine Agree.bind (R := Eq) (.ofExcept fun _ _ => rfl) ?_
    rintro comparison _ rfl
    refine (columnAt_shift table column {}).bind ?_
    rintro ⟨left, reach⟩ ⟨_, _⟩ ⟨rfl, rfl⟩
    refine (operandAt_shift table column.name reach operand).map ?_
    rintro ⟨right, reach⟩ ⟨_, _⟩ ⟨rfl, rfl⟩
    exact Reach.existence_renumber _ reach (.compare comparison left right)
  | .list operator column values => by
    refine Agree.bind (R := Eq) (.ofExcept fun _ _ => rfl) fun _ _ _ => ?_
    refine (columnAt_shift table column {}).bind ?_
    rintro ⟨e, reach⟩ ⟨_, _⟩ ⟨rfl, rfl⟩
    refine Agree.map (R := fun es es' => es = es' ∧ listRenumber (shift n d) es = es)
      (.ofExcept fun items hitems => ⟨rfl, options_renumber _ hitems⟩) ?_
    rintro items _ ⟨rfl, hitems⟩
    rw [Reach.existence_renumber]
    refine congrArg _ ?_
    split
    · rfl
    · rw [Expr.renumber, hitems]

theorem filterConditions_shift (table : BoundTable) : ∀ filters : List Filter,
    Agree (Ahead n d) (fun es es' => listRenumber (shift n d) es = es')
      (filterConditions c table filters)
      (filterConditions c (table.renumber (shift n d)) filters)
  | [] => .pure rfl
  | filter :: filters => by
    refine (filterCondition_shift table filter).bind ?_
    rintro e _ rfl
    refine (filterConditions_shift table filters).map ?_
    rintro es _ rfl
    rfl

end

/-- The condition on the rows of a page, if the alias of the parent row was drawn before. -/
theorem rowCondition_shift (table : BoundTable) {link : Option Link} (filter : Option Filter)
    (hlink : ∀ l ∈ link, l.parent.label.index < n) :
    Agree (Ahead n d) (fun e e' => e.renumber (shift n d) = e') (rowCondition c table link filter)
      (rowCondition c (table.renumber (shift n d)) link filter) := by
  have hown : Agree (Ahead n d) (fun e e' => e.renumber (shift n d) = e')
      (ownCondition c table filter) (ownCondition c (table.renumber (shift n d)) filter) := by
    cases filter with
    | none => exact .pure rfl
    | some f => exact filterCondition_shift table f
  have hjoin : linkCondition (table.renumber (shift n d)) link =
      (linkCondition table link).map (Expr.renumber (shift n d)) := by
    cases link with
    | none => rfl
    | some l =>
      have hparent : l.parent.renumber (shift n d) = l.parent := by
        simp [BoundTable.renumber, TableAlias.renumber, shift_of_lt (hlink l rfl)]
      have hjoin := joinCondition_renumber (shift n d) l.parent table l.name l.relationship
      rwa [hparent] at hjoin
  rw [rowCondition_eq, rowCondition_eq, hjoin]
  refine hown.bind ?_
  rintro own _ rfl
  refine Agree.map (R := fun e e' => e.renumber (shift n d) = e') (.ofExcept_map fun _ _ => rfl) ?_
  rintro join _ rfl
  exact Expr.renumber_conj _ own join

end Runs

/-! ### Pages -/

section Selects

/-- The select of which the expression is the value, as JSON and with marks or without. -/
def selectOf : Expr → Option Select
  | .subselect s    => some s
  | .tagged _ e     => selectOf e
  | .call .json [e] => selectOf e
  | _               => none

/-- The member of an object. -/
def memberOf (key : String) : Expr → Option Expr
  | .object entries => entries.lookup key
  | _               => none

/-- The select that a select takes its rows from. -/
def innerOf (s : Select) : Option Select :=
  match s.source with
  | some (.select inner _) => some inner
  | _ => none

/-- The select of the rows under the aggregates of a query. -/
def summarisedRows (e : Expr) : Option Select := do
  innerOf (← selectOf (← memberOf "aggregates" e))

/-- The select that has the clauses of the rows of a query: the one that builds their objects or, if
they are ordered, the one under it. -/
def listedRows (orderBy : List OrderBy) (e : Expr) : Option Select := do
  let objects ← innerOf (← selectOf (← memberOf "rows" e))
  if orderBy.isEmpty then return objects else innerOf objects

/-- The select without what it yields: its source, joins, condition, order and limit. -/
def clausesOf (s : Select) : Select := { s with list := .star }

/-- The indices of the aliases that are bound in a select. -/
def indicesOf (s : Select) : Set Nat := {i | ∃ a ∈ s.aliases, a.index = i}

theorem listedRows_arrayOf (c : Context) (orderBy : List OrderBy) (first : Expr) (objects : Select)
    (rows : TableAlias) :
    listedRows orderBy (.object [("aggregates", first),
      ("rows", (c.tag "array_relationship" (.subselect (arrayOf objects rows))).asJson)]) =
    if orderBy.isEmpty then some objects else innerOf objects := by
  have hselect (rule : String) (s : Select) : selectOf (c.tag rule (.subselect s)) = some s := by
    unfold Context.tag
    split <;> rfl
  show (selectOf (c.tag "array_relationship" _)).bind _ = _
  rw [hselect]
  rfl

/-- The objects of a page that has no order are built over the page itself. -/
theorem clausesOf_directObjects {c : Context} {table : BoundTable} {page : Page}
    {condition object : Expr} (h : page.orderBy = []) :
    clausesOf (directObjects c table page condition object) = pageRows c table page condition := by
  rw [pageRows, h]
  rfl

end Selects

theorem whereCondition_renumber (σ : Nat → Nat) (c : Context) (e : Expr) :
    (whereCondition c e).renumber σ = whereCondition c (e.renumber σ) := by
  unfold whereCondition
  rw [Expr.isTrue_renumber]
  split
  · rfl
  · exact Context.renumber_tag σ _ e

theorem orderRenumber_orderColumns (σ : Nat → Nat) (table : BoundTable) (orderBy : List OrderBy) :
    orderRenumber σ (orderColumns table orderBy) = orderColumns (table.renumber σ) orderBy := by
  induction orderBy with
  | nil => rfl
  | cons o orderBy ih => exact congrArg (List.cons _) ih

theorem pageRows_renumber (σ : Nat → Nat) (c : Context) (table : BoundTable) (page : Page)
    (condition : Expr) :
    (pageRows c table page condition).renumber σ =
      pageRows c (table.renumber σ) page (condition.renumber σ) := by
  simp only [pageRows, Select.renumber, whereCondition_renumber, orderRenumber_orderColumns]
  rfl

theorem Fills.indices_eq {n' : Nat} {labels : List TableAlias} (h : Fills n n' labels) :
    {i | ∃ a ∈ labels, a.index = i} = Set.Ico n n' := by
  ext i
  have hmem := h.perm.mem_iff (a := i)
  rw [List.mem_map, List.mem_range'_1] at hmem
  have hle := h.le
  show (∃ a ∈ labels, a.index = i) ↔ n ≤ i ∧ i < n'
  rw [hmem]
  omega

/-- The page of a query binds its table, and what its condition binds. -/
theorem pageRows_fills {c : Context} {name : String} {link : Option Link} (page : Page)
    {condition : Expr} {n m : Nat}
    (h : rowCondition c (.fresh name n) link page.filter (n + 1) = .ok condition m) :
    Fills n m (pageRows c (.fresh name n) page condition).aliases := by
  rw [aliases_pageRows]
  have htable : Fills n (n + 1) [(BoundTable.fresh name n).label] := .single rfl
  exact htable.append (rowCondition_fills h)

/-- **The rows and the aggregates of a query are over the same page.** Of a query that asks for both,
at any depth, with any parent row that is bound before it and from any alias on, the select under the
aggregates and the select of the rows have the same source, joins, condition, order and limit but for
the indices of the aliases they bind, which correspond one to one; the aliases that were bound before
are the same in both. -/
theorem arrayQuery_pages_renumber {c : Context} {depth : Nat} {name : String} {link : Option Link}
    {q : Query} {n n' : Nat} {e : Expr} (hlink : ∀ l ∈ link, l.parent.label.index < n)
    (haggregates : q.aggregates ≠ none) (hfields : q.fields ≠ none)
    (h : arrayQuery c depth name link q n = .ok e n') :
    ∃ summarised listed : Select, ∃ σ : Nat → Nat,
      summarisedRows e = some summarised ∧ listedRows (pageOf q).orderBy e = some listed ∧
      summarised.list = .star ∧ clausesOf listed = summarised.renumber σ ∧
      Set.BijOn σ (indicesOf summarised) (indicesOf (clausesOf listed)) ∧ ∀ i < n, σ i = i := by
  obtain ⟨aggregates, haggregates⟩ := Option.ne_none_iff_exists'.1 haggregates
  obtain ⟨s, m', hs, ⟨hnone, -, -⟩ | ⟨rows, -, hrows, rfl⟩⟩ := arrayQuery_aggregates_ok haggregates h
  · exact absurd hnone hfields
  obtain ⟨condition, m, entries, hcondition, -, rfl, rfl⟩ := aggregatesSelect_ok hs
  obtain ⟨condition', m', objects, k, hcondition', hobjects, rfl, -⟩ := rowsArray_ok hrows
  -- the page of the rows is compiled as many aliases further on as that of the aggregates took
  have hfills := pageRows_fills (pageOf q) hcondition
  have hfills' := pageRows_fills (pageOf q) hcondition'
  obtain ⟨d, hd⟩ : ∃ d, m + 1 = n + d := Nat.exists_eq_add_of_le (Nat.le_succ_of_le hfills.le)
  have htable : BoundTable.fresh name (m + 1) = (BoundTable.fresh name n).renumber (shift n d) := by
    rw [BoundTable.renumber_fresh name (Nat.le_refl n)]
    exact congrArg _ hd
  have hahead : Ahead n d (n + 1) (m + 1 + 1) := ⟨Nat.le_succ n, by omega⟩
  have hrun := rowCondition_shift (c := c) (BoundTable.fresh name n) (pageOf q).filter hlink hahead
  rw [← htable, hcondition, hcondition'] at hrun
  obtain ⟨rfl, -, rfl⟩ : condition.renumber (shift n d) = condition' ∧ Ahead n d m m' := by
    cases hrun with
    | ok results counters => exact ⟨results, counters⟩
  have hpages : pageRows c (.fresh name (m + 1)) (pageOf q) (condition.renumber (shift n d)) =
      (pageRows c (.fresh name n) (pageOf q) condition).renumber (shift n d) := by
    rw [pageRows_renumber, ← htable]
  have hbijective : Set.BijOn (shift n d) (indicesOf (pageRows c (.fresh name n) (pageOf q) condition))
      (indicesOf (pageRows c (.fresh name (m + 1)) (pageOf q) (condition.renumber (shift n d)))) := by
    rw [indicesOf, indicesOf, hfills.indices_eq, hfills'.indices_eq, hd]
    exact bijOn_shift n d m
  refine ⟨pageRows c (.fresh name n) (pageOf q) condition, ?_⟩
  cases hobjects with
  | direct plain =>
    refine ⟨_, shift n d, rfl, (listedRows_arrayOf _ _ _ _ _).trans (if_pos ?_), rfl, ?_, ?_,
      fun i => shift_of_lt⟩
    · rw [plain]
      rfl
    · rw [clausesOf_directObjects plain, hpages]
    · rwa [clausesOf_directObjects plain]
  | ordered sorted =>
    refine ⟨_, shift n d, rfl, (listedRows_arrayOf _ _ _ _ _).trans (if_neg ?_), rfl, hpages,
      hbijective, fun i => shift_of_lt⟩
    rwa [List.isEmpty_iff]

end Compile

namespace Music

open Compile

/-- The albums of an artist whose titles come before the name of their artist, counted and listed by
title. -/
def titles : Query :=
  { fields := some [("title", .column "Title")]
    aggregates := some [("albums", .rowCount)]
    filter := some (.binary "less_than" { name := "Title" } (.column { path := ["Artist"], name := "Name" }))
    orderBy := some [{ column := "Title", direction := .desc }]
    limit := some 2 }

/-- The albums of an artist at the fourth alias. -/
def ofArtist : Link :=
  { parent := .fresh "Artist" 3
    name := "Albums"
    relationship := { target := "Album", kind := .array, mapping := [("ArtistId", "ArtistId")] } }

/-- Two selects of albums, each with an alias for the table and one for the artist of the filter, have
the same clauses but for these aliases. -/
theorem titles_pages :
    (∀ l ∈ some ofArtist, l.parent.label.index < 4) ∧
    ∃ e summarised listed, ∃ σ : Nat → Nat,
      arrayQuery { relationships := relationships, settings := {} } 1 "Album"
        (some ofArtist) titles 4 = .ok e 11 ∧
      summarisedRows e = some summarised ∧
      listedRows [{ column := "Title", direction := .desc }] e = some listed ∧
      summarised.aliases = [{ name := "Album", index := 4 }, { name := "Artist", index := 5 }] ∧
      listed.aliases = [{ name := "Album", index := 7 }, { name := "Artist", index := 8 }] ∧
      clausesOf listed = summarised.renumber σ ∧ σ 3 = 3 := by
  have hlink : ∀ l ∈ some ofArtist, l.parent.label.index < 4 := by
    rintro l ⟨⟩
    decide
  have hrun : arrayQuery { relationships := relationships, settings := {} } 1 "Album"
      (some ofArtist) titles 4 = .ok _ 11 := rfl
  obtain ⟨summarised, listed, σ, hsummarised, hlisted, -, hclauses, -, hfixed⟩ :=
    arrayQuery_pages_renumber hlink (by decide) (by decide) hrun
  cases hsummarised
  cases hlisted
  exact ⟨hlink, _, _, _, σ, hrun, rfl, rfl, rfl, rfl, hclauses, hfixed 3 (by decide)⟩

end Music

end DataAgent
