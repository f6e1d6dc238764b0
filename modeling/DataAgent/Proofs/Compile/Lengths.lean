import DataAgent.Proofs.Compile.Draws
import DataAgent.Proofs.Sql.Lengths

/-!
# Proofs — Compile — Lengths

A statement has no more pieces than a fixed number for each part of its request, and for each query and
each relationship along a path as many as the columns it maps call for (`arrayQuery_length`). The filter
of a query that asks for aggregates and rows is in the statement twice, but the queries of its fields
are not, so the factor of two does not multiply from level to level.
-/

namespace DataAgent

namespace Compile

open Sql

variable {c : Context} {m : Nat}

/-! ### Filters -/

/-- No relationship that is found maps more columns. -/
def Context.MapsAtMost (c : Context) (m : Nat) : Prop :=
  ∀ table name r, c.lookup table name = .ok r → r.mapping.length ≤ m

theorem Context.length_tag_le (c : Context) (rule : String) (e : Expr) :
    (c.tag rule e).pieces.length ≤ e.pieces.length + 4 := by
  unfold Context.tag
  split
  · simp only [Expr.pieces, List.length_append, List.length_cons, List.length_nil]
    omega
  · omega

@[simp] theorem BoundTable.length_column (t : BoundTable) (name : String) :
    (t.column name).pieces.length = 3 := rfl

theorem length_joinCondition_le {source target : BoundTable} {name : String} {r : Relationship}
    {e : Expr} (h : joinCondition source target name r = .ok e) (hm : r.mapping.length ≤ m) :
    e.pieces.length ≤ 12 * m + 1 := by
  have hfold := Expr.length_foldl_conj_le (r.mapping.map fun pair =>
    Expr.compare .equal (source.column pair.1) (target.column pair.2)) .always
  have hpairs : ((r.mapping.map fun pair => Expr.compare .equal (source.column pair.1)
      (target.column pair.2)).map fun e => e.pieces.length + 3).sum = 12 * r.mapping.length := by
    rw [List.map_map]
    have hpair : ((fun e : Expr => e.pieces.length + 3) ∘ fun pair : String × String =>
        Expr.compare .equal (source.column pair.1) (target.column pair.2)) = fun _ => 12 := rfl
    rw [hpair, List.map_const', List.sum_replicate, smul_eq_mul, Nat.mul_comm]
  have halways : Expr.always.pieces.length = 1 := rfl
  rw [joinCondition_ok h]
  omega

theorem Walk.length_tables {table last : BoundTable} {path : List String} {n : Nat}
    {tables : List BoundTable} {joins : List Expr} (h : Walk c table path n tables joins last) :
    tables.length = path.length := by
  induction h with
  | nil => rfl
  | cons _ _ _ ih => rw [List.length_cons, List.length_cons, ih]

theorem Walk.length_joins_le (hm : c.MapsAtMost m) {table last : BoundTable} {path : List String}
    {n : Nat} {tables : List BoundTable} {joins : List Expr}
    (h : Walk c table path n tables joins last) :
    (joins.map fun e => e.pieces.length + 3).sum ≤ (12 * m + 4) * path.length := by
  induction h with
  | nil => exact Nat.zero_le _
  | cons found joined _ ih =>
    have hjoin := length_joinCondition_le joined (hm _ _ _ found)
    rw [List.map_cons, List.sum_cons, List.length_cons, Nat.mul_add]
    omega

theorem length_options_le {column : String} {values : List Json} {items : List Expr}
    (h : options c column values = .ok items) :
    (items.map fun e => e.pieces.length + 1).sum ≤ 6 * values.length := by
  replace h := options_ok h
  induction h with
  | nil => exact Nat.zero_le _
  | cons hitem _ ih =>
    obtain ⟨v, -, rfl⟩ := hitem
    have htag := c.length_tag_le "bop_val" (.value v)
    rw [Expr.length_value] at htag
    rw [List.map_cons, List.sum_cons, List.length_cons]
    omega

/-- The paths of a filter that compares are the two that lead to what it compares. -/
theorem Comparing.segments_eq {l r : BoundTable} {filter : Filter} {left right : List String}
    {e : Expr} (h : Comparing c l r filter left right e) :
    filter.segments = left.length + right.length := by
  cases h <;> rfl

theorem Comparing.length_le {l r : BoundTable} {filter : Filter} {left right : List String}
    {e : Expr} (h : Comparing c l r filter left right e) :
    e.pieces.length ≤ 6 * filter.parts + 20 := by
  have hleft (name : String) := c.length_tag_le "bop_col" (l.column name)
  simp only [BoundTable.length_column] at hleft
  cases h with
  | isNull column =>
    have hcolumn := hleft column.name
    simp only [Expr.pieces, List.length_append, List.length_cons, List.length_nil, Filter.parts]
    omega
  | @value _ column _ _ v _ _ =>
    have hcolumn := hleft column.name
    have htag := c.length_tag_le "bop_val" (.value v)
    rw [Expr.length_value] at htag
    rw [Expr.pieces]
    simp only [List.length_append, List.length_cons, List.length_nil, Filter.parts]
    omega
  | @column _ column other _ _ =>
    have hcolumn := hleft column.name
    have hother := c.length_tag_le "bop_col" (r.column other.name)
    have htag := c.length_tag_le "bop_val" (c.tag "bop_col" (r.column other.name))
    rw [BoundTable.length_column] at hother
    rw [Expr.pieces]
    simp only [List.length_append, List.length_cons, List.length_nil, Filter.parts]
    omega
  | @list column values items hs =>
    have hcolumn := hleft column.name
    have hitems := length_options_le hs
    rw [Filter.parts]
    split
    · have hnever : Expr.never.pieces.length = 1 := rfl
      omega
    · have hin := Expr.length_isIn_le (c.tag "bop_col" (l.column column.name)) items
      omega

/-- The select of the rows that a comparison reaches. -/
def Reach.rows (reach : Reach) (first : BoundTable) (others : List BoundTable)
    (comparison : Expr) : Select :=
  { list := .one
    source := some first.source
    joins := others.map BoundTable.join
    condition := reach.joins.conj comparison }

theorem Reach.length_existence_le (c : Context) (reach : Reach) (comparison : Expr) :
    (reach.existence c comparison).pieces.length ≤
      reach.joins.pieces.length + comparison.pieces.length + 4 * reach.tables.length + 14 := by
  unfold Reach.existence
  split
  · omega
  next first others htables =>
    have htag := c.length_tag_le "exists" (.existsRow (reach.rows first others comparison))
    have hconj := Expr.length_conj_le reach.joins comparison
    have hjoins := length_joins (others.map BoundTable.join)
    have hrows : (reach.rows first others comparison).pieces.length ≤ 1 + 4 +
        ((others.map BoundTable.join).flatMap CrossJoin.pieces).length +
        (conditionPieces (reach.joins.conj comparison)).length + 0 + 3 := Select.length_pieces_le _
    have hcondition := length_conditionPieces_le (reach.joins.conj comparison)
    rw [List.length_map] at hjoins
    rw [Expr.pieces, List.length_append, List.length_cons, List.length_singleton] at htag
    rw [htables, List.length_cons]
    exact htag.trans (by omega)

theorem ComparisonRun.length_le (hm : c.MapsAtMost m) {table : BoundTable} {filter : Filter}
    {n n' : Nat} {e : Expr} (h : ComparisonRun c table filter n n' e) :
    e.pieces.length ≤ 6 * filter.parts + (12 * m + 8) * filter.segments + 35 := by
  have hfold := Expr.length_foldl_conj_le (h.leftJoins ++ h.rightJoins) .always
  have halways : Expr.always.pieces.length = 1 := rfl
  have hleft := h.leftWalk.length_joins_le hm
  have hright := h.rightWalk.length_joins_le hm
  have hcomparison := h.comparing.length_le
  have hexistence := Reach.length_existence_le c
    { tables := h.leftTables ++ h.rightTables
      joins := (h.leftJoins ++ h.rightJoins).foldl .conj .always } h.comparison
  rw [← h.result] at hexistence
  rw [List.map_append, List.sum_append, halways] at hfold
  simp only [List.length_append, h.leftWalk.length_tables, h.rightWalk.length_tables] at hexistence
  rw [h.comparing.segments_eq, Nat.mul_add, Nat.add_mul, Nat.add_mul]
  rw [Nat.add_mul] at hleft hright
  omega

theorem length_disjunction_le (es : List Expr) :
    (disjunction es).pieces.length ≤ 1 + (es.map fun e => e.pieces.length + 3).sum := by
  cases es with
  | nil => exact Nat.le_refl _
  | cons e es =>
    have hor := Expr.length_foldl_or es e
    rw [List.map_cons, List.sum_cons, disjunction]
    omega

mutual

theorem filterCondition_length (hm : c.MapsAtMost m) {table : BoundTable} :
    ∀ (filter : Filter) {n n' : Nat} {e : Expr}, filterCondition c table filter n = .ok e n' →
      e.pieces.length + 3 ≤ 50 * filter.parts + (12 * m + 8) * filter.segments
  | .and filters, _, _, _, h => by
    obtain ⟨es, hes, rfl⟩ := filterCondition_and_ok h
    have hfold := Expr.length_foldl_conj_le es .always
    have halways : Expr.always.pieces.length = 1 := rfl
    have hparts := filterConditions_length hm filters hes
    rw [Filter.parts, Filter.segments]
    omega
  | .or filters, _, _, _, h => by
    obtain ⟨es, hes, rfl⟩ := filterCondition_or_ok h
    have hfold := length_disjunction_le es
    have hparts := filterConditions_length hm filters hes
    rw [Filter.parts, Filter.segments]
    omega
  | .not filter, _, _, _, h => by
    obtain ⟨e, he, rfl⟩ := filterCondition_not_ok h
    have hpart := filterCondition_length hm filter he
    simp only [Expr.pieces, List.length_append, List.length_cons, List.length_nil, Filter.parts,
      Filter.segments]
    omega
  | .unary _ _, _, _, _, h => by
    obtain ⟨run⟩ := filterCondition_unary_ok h
    have hrun := run.length_le hm
    rw [Filter.parts] at hrun ⊢
    omega
  | .binary _ _ _, _, _, _, h => by
    obtain ⟨run⟩ := filterCondition_binary_ok h
    have hrun := run.length_le hm
    rw [Filter.parts] at hrun ⊢
    omega
  | .list _ _ _, _, _, _, h => by
    obtain ⟨run⟩ := filterCondition_list_ok h
    have hrun := run.length_le hm
    rw [Filter.parts] at hrun ⊢
    omega

theorem filterConditions_length (hm : c.MapsAtMost m) {table : BoundTable} :
    ∀ (filters : List Filter) {n n' : Nat} {es : List Expr},
      filterConditions c table filters n = .ok es n' →
        (es.map fun e => e.pieces.length + 3).sum ≤
          50 * Filter.listParts filters + (12 * m + 8) * Filter.listSegments filters
  | [], _, _, _, h => by
    obtain ⟨rfl, rfl⟩ := filterConditions_nil_ok h
    exact Nat.zero_le _
  | filter :: filters, _, _, _, h => by
    obtain ⟨e, es, _, he, hes, rfl⟩ := filterConditions_cons_ok h
    have hfirst := filterCondition_length hm filter he
    have hrest := filterConditions_length hm filters hes
    rw [List.map_cons, List.sum_cons, Filter.listParts, Filter.listSegments, Nat.mul_add, Nat.mul_add]
    omega

end

/-! ### Rows of a page -/

/-- The pieces of the condition and the order of a page, but for a few. -/
def Page.bulk (m : Nat) (page : Page) : Nat :=
  50 * page.filter.elim 0 Filter.parts + (12 * m + 8) * page.segments + 12 * m +
    5 * page.orderBy.length

/-- The relationship that restricts a query maps at most so many columns. -/
def LinkMapsAtMost (link : Option Link) (m : Nat) : Prop :=
  ∀ l ∈ link, l.relationship.mapping.length ≤ m

theorem rowCondition_length (hm : c.MapsAtMost m) {table : BoundTable} {link : Option Link}
    (hlink : LinkMapsAtMost link m) {page : Page} {n n' : Nat} {e : Expr}
    (h : rowCondition c table link page.filter n = .ok e n') :
    e.pieces.length + 5 * page.orderBy.length ≤ page.bulk m + 5 := by
  obtain ⟨own, join, hown, hjoin, rfl⟩ := rowCondition_ok h
  have hconj := Expr.length_conj_le own join
  have hjoins : join.pieces.length ≤ 12 * m + 1 := by
    cases link with
    | none =>
      cases hjoin
      exact Nat.le_add_left _ _
    | some l => exact length_joinCondition_le hjoin (hlink l rfl)
  have howns : own.pieces.length + 3 ≤
      50 * page.filter.elim 0 Filter.parts + (12 * m + 8) * page.segments + 4 := by
    unfold Page.segments
    cases hfilter : page.filter with
    | none =>
      rw [hfilter] at hown
      obtain ⟨rfl, -⟩ := pure_ok_iff.1 hown
      exact Nat.le_add_left _ _
    | some f =>
      rw [hfilter] at hown
      exact (filterCondition_length hm f hown).trans (Nat.le_add_right _ _)
  unfold Page.bulk
  omega

theorem length_whereCondition_le (c : Context) (e : Expr) :
    (conditionPieces (whereCondition c e)).length ≤ e.pieces.length + 5 := by
  have htag := c.length_tag_le "where" e
  unfold whereCondition
  split
  · exact (length_conditionPieces_le e).trans (by omega)
  · exact (length_conditionPieces_le _).trans (by omega)

theorem length_orderColumns (table : BoundTable) (orderBy : List OrderBy) :
    ((orderColumns table orderBy).map fun o => o.1.pieces.length + 2).sum = 5 * orderBy.length := by
  induction orderBy with
  | nil => rfl
  | cons o orderBy ih =>
    rw [orderColumns, List.map_cons, List.map_cons, List.sum_cons]
    rw [orderColumns] at ih
    rw [ih, BoundTable.length_column, List.length_cons]
    omega

theorem length_pageRows_le (c : Context) (table : BoundTable) (page : Page) (condition : Expr) :
    (pageRows c table page condition).pieces.length ≤
      condition.pieces.length + 5 * page.orderBy.length + 13 := by
  have hrows : (pageRows c table page condition).pieces.length ≤ 1 + 4 + 0 +
      (conditionPieces (whereCondition c condition)).length +
      ((orderColumns table page.orderBy).map fun o => o.1.pieces.length + 2).sum + 3 :=
    Select.length_pieces_le _
  have hcondition := length_whereCondition_le c condition
  rw [length_orderColumns] at hrows
  omega

/-- A select of one item, over a source and on a condition. -/
theorem length_ofItem_le (key : String) (e : Expr) (source : Option Source) (condition : Expr)
    (limit : Limit) :
    ({ Select.ofItems [(key, e)] with source, condition, limit } : Select).pieces.length ≤
      e.pieces.length + (optionalSourcePieces source).length + (conditionPieces condition).length +
        5 := by
  have hselect := Select.length_pieces_le
    { Select.ofItems [(key, e)] with source, condition, limit }
  have hitem : (SelectList.items [(key, e)]).pieces.length = e.pieces.length + 2 := by
    simp [SelectList.pieces, itemPieces, Piece.commas]
  simp only [Select.ofItems, hitem, List.flatMap_nil, List.length_nil, List.map_nil,
    List.sum_nil] at hselect ⊢
  omega

theorem conditionPieces_always : conditionPieces .always = [] := rfl

/-- A source that is a select adds its brackets and its alias. -/
theorem length_selectSource (s : Select) (label : TableAlias) :
    (optionalSourcePieces (some (.select s label))).length = s.pieces.length + 5 := by
  simp [optionalSourcePieces, Source.pieces, TableAlias.pieces]

theorem length_subselect (s : Select) :
    (Expr.subselect s).pieces.length = s.pieces.length + 2 := by
  simp [Expr.pieces]

/-- Whichever plan is taken, the objects have the pieces of one object, the condition and the order. -/
theorem ObjectsRun.length_le {name : String} {page : Page} {object : BoundTable → Compile Expr}
    {n k l b : Nat} {condition : Expr} {objects : Select}
    (h : ObjectsRun c name page object n condition k objects l)
    (hobject : ∀ {t n n' e}, t.name = name → object t n = .ok e n' → e.pieces.length ≤ b) :
    objects.pieces.length ≤ b + condition.pieces.length + 5 * page.orderBy.length + 23 := by
  cases h with
  | @direct _ e _ run =>
    have hselect := length_ofItem_le "j" e (some (BoundTable.fresh name n).source)
      (whereCondition c condition) page.limit
    have hsource : (optionalSourcePieces (some (BoundTable.fresh name n).source)).length = 4 := rfl
    have hcondition := length_whereCondition_le c condition
    have he := hobject rfl run
    rw [hsource] at hselect
    exact hselect.trans (by omega)
  | @ordered _ e _ run =>
    have hselect := length_ofItem_le "j" e (some (.select (pageRows c (.fresh name n) page condition)
      (BoundTable.fresh name k).label)) .always {}
    have hrows := length_pageRows_le c (.fresh name n) page condition
    have he := hobject rfl run
    rw [length_selectSource, conditionPieces_always] at hselect
    exact hselect.trans (by rw [List.length_nil]; omega)

theorem length_arrayOf_le (objects : Select) (rows : TableAlias) :
    (arrayOf objects rows).pieces.length ≤ objects.pieces.length + 19 := by
  have hselect := length_ofItem_le "array"
    (.call .jsonGroupArray [.asJson (.column (.derived (.aliased rows) "j"))])
    (some (.select objects rows)) .always {}
  have hitem : (Expr.call .jsonGroupArray
      [.asJson (.column (.derived (.aliased rows) "j"))]).pieces.length = 9 := rfl
  rw [length_selectSource, conditionPieces_always, hitem] at hselect
  exact hselect.trans (by rw [List.length_nil]; omega)

theorem rowsArray_length (hm : c.MapsAtMost m) {name : String} {link : Option Link}
    (hlink : LinkMapsAtMost link m) {page : Page} {object : BoundTable → Compile Expr}
    {n n' b : Nat} {e : Expr}
    (hobject : ∀ {t n n' e}, t.name = name → object t n = .ok e n' → e.pieces.length ≤ b)
    (h : rowsArray c name link page object n = .ok e n') :
    e.pieces.length ≤ b + page.bulk m + 53 := by
  obtain ⟨condition, k, objects, l, hc, hobjects, rfl, -⟩ := rowsArray_ok h
  have hcondition := rowCondition_length hm hlink hc
  have hlength := hobjects.length_le hobject
  have harray := length_arrayOf_le objects { name := "rows", index := l }
  have htag := c.length_tag_le "array_relationship"
    (.subselect (arrayOf objects { name := "rows", index := l }))
  rw [length_subselect] at htag
  omega

theorem AggregateRun.length_le {table : BoundTable} {a : Aggregate} {e : Expr}
    (h : AggregateRun table a e) : e.pieces.length ≤ 6 := by
  cases h with
  | rows => exact (by decide : 3 ≤ 6)
  | values _ => exact (by decide : 5 ≤ 6)
  | distinct _ | single _ => exact Nat.le_refl 6

theorem aggregatesSelect_length (hm : c.MapsAtMost m) {name : String} {link : Option Link}
    (hlink : LinkMapsAtMost link m) {page : Page} {aggregates : List (String × Aggregate)}
    {n n' : Nat} {s : Select} (h : aggregatesSelect c name link page aggregates n = .ok s n') :
    s.pieces.length ≤ 9 * aggregates.length + page.bulk m + 34 := by
  obtain ⟨condition, k, entries, hc, hentries, rfl, -⟩ := aggregatesSelect_ok h
  have hcondition := rowCondition_length hm hlink hc
  have hsum : (entries.map fun e => e.2.pieces.length + 3).sum ≤ 9 * aggregates.length := by
    clear h
    induction hentries with
    | nil => exact Nat.zero_le _
    | cons ha _ ih =>
      have hfirst := ha.2.length_le
      rw [List.map_cons, List.sum_cons, List.length_cons]
      omega
  have hobject := Expr.length_object_le entries
  have htag := c.length_tag_le "aggregates" (.object entries)
  have hrows := length_pageRows_le c (.fresh name n) page condition
  have hselect := length_ofItem_le "aggregates" (c.tag "aggregates" (.object entries))
    (some (.select (pageRows c (.fresh name n) page condition) (BoundTable.fresh name k).label))
    .always {}
  rw [length_selectSource, conditionPieces_always] at hselect
  exact hselect.trans (by rw [List.length_nil]; omega)

theorem relatedObject_length (hm : c.MapsAtMost m) {link : Link}
    (hlink : link.relationship.mapping.length ≤ m) (page : Page)
    {object : BoundTable → Compile Expr} {n n' b : Nat} {e : Expr}
    (hobject : ∀ {t n n' e}, t.name = link.relationship.target → object t n = .ok e n' →
      e.pieces.length ≤ b)
    (h : relatedObject c link page.filter object n = .ok e n') :
    e.pieces.length ≤ b + page.bulk m + 53 := by
  obtain ⟨condition, k, o, hc, ho, rfl⟩ := relatedObject_ok h
  have hlinks : LinkMapsAtMost (some link) m := by
    rintro l ⟨⟩
    exact hlink
  have hcondition := rowCondition_length hm hlinks hc
  have he := hobject rfl ho
  have hclause := length_whereCondition_le c condition
  have hitem : (Expr.object [("rows", .call .jsonArray [o])]).pieces.length =
      o.pieces.length + 7 := by
    simp [Expr.pieces, entryPieces, listPieces, Piece.commas]
  have hsource : (optionalSourcePieces (some
    (BoundTable.fresh link.relationship.target n).source)).length = 4 := rfl
  have hselect := length_ofItem_le "object" (.object [("rows", .call .jsonArray [o])])
    (some (BoundTable.fresh link.relationship.target n).source) (whereCondition c condition) {}
  have htag := c.length_tag_le "object_relationship"
    (.subselect (objectOf c (.fresh link.relationship.target n) condition o))
  rw [hitem, hsource] at hselect
  rw [length_subselect] at htag
  have hobjectOf : (objectOf c (.fresh link.relationship.target n) condition o).pieces.length ≤
    o.pieces.length + 7 + 4 + (conditionPieces (whereCondition c condition)).length + 5 := hselect
  omega

/-! ### Queries -/

/-- The pieces of a query, without those of the queries in its fields. -/
def bulkOf (m : Nat) (q : Query) : Nat :=
  120 * q.parts + 2 * ((12 * m + 8) * (1 + q.segments))

/-- The pieces of queries in all. -/
def totalBulk (m : Nat) (queries : List Query) : Nat := (queries.map (bulkOf m)).sum

theorem totalBulk_cons (m : Nat) (q : Query) (queries : List Query) :
    totalBulk m (q :: queries) = bulkOf m q + totalBulk m queries := by
  simp [totalBulk]

theorem totalBulk_append (m : Nat) (queries queries' : List Query) :
    totalBulk m (queries ++ queries') = totalBulk m queries + totalBulk m queries' := by
  simp [totalBulk]

/-- What a query takes covers its page twice, its fields and its aggregates. -/
theorem le_bulkOf (m : Nat) (q : Query) :
    2 * (pageOf q).bulk m + 10 * (q.fields.getD []).length + 9 * (q.aggregates.getD []).length +
      118 ≤ bulkOf m q := by
  have hsegments : (pageOf q).segments = q.segments := rfl
  have horder : (pageOf q).orderBy = q.orderBy.getD [] := rfl
  have hfilter : (pageOf q).filter = q.filter := rfl
  unfold bulkOf Page.bulk Query.parts
  rw [hsegments, horder, hfilter, Nat.mul_add (12 * m + 8) 1]
  omega

mutual

/-- A query and its page, each once or twice, and the object of its fields. -/
theorem arrayQuery_length (hm : c.MapsAtMost m) : ∀ (q : Query) {depth : Nat} {name : String}
    {link : Option Link} {n n' : Nat} {e : Expr}, LinkMapsAtMost link m →
      arrayQuery c depth name link q n = .ok e n' →
        e.pieces.length + 9 ≤ totalBulk m q.queries
  | ⟨fields, none, filter, orderBy, limit, offset⟩, depth, name, link, _, _, _, hlink, h => by
    have hrows := rowsArray_length hm hlink (fun _ => fieldsObject_length hm fields)
      (arrayQuery_rows_ok rfl h)
    have hbulk := le_bulkOf m ⟨fields, none, filter, orderBy, limit, offset⟩
    rw [Query.queries, totalBulk_cons]
    dsimp only at hbulk hrows
    omega
  | ⟨fields, some aggregates, filter, orderBy, limit, offset⟩, depth, name, link, _, _, _, hlink,
      h => by
    obtain ⟨s, k, hs, ⟨rfl, rfl, -⟩ | ⟨rows, -, hrows, rfl⟩⟩ := arrayQuery_aggregates_ok rfl h
    · have hsummary := aggregatesSelect_length hm hlink hs
      have hbulk := le_bulkOf m ⟨none, some aggregates, filter, orderBy, limit, offset⟩
      have hobject := Expr.length_object_le [("aggregates", .asJson (.subselect s))]
      rw [Query.queries, totalBulk_cons]
      simp only [List.map_cons, List.map_nil, List.sum_cons, List.sum_nil, Expr.length_asJson,
        length_subselect] at hobject
      simp only [Option.getD_some] at hbulk
      omega
    · have hsummary := aggregatesSelect_length hm hlink hs
      have hobjects := rowsArray_length hm hlink (fun _ => fieldsObject_length hm fields) hrows
      have hbulk := le_bulkOf m ⟨fields, some aggregates, filter, orderBy, limit, offset⟩
      have hobject := Expr.length_object_le
        [("aggregates", .asJson (.subselect s)), ("rows", rows.asJson)]
      rw [Query.queries, totalBulk_cons]
      simp only [List.map_cons, List.map_nil, List.sum_cons, List.sum_nil, Expr.length_asJson,
        length_subselect] at hobject
      simp only [Option.getD_some] at hbulk hobjects
      omega

theorem objectQuery_length (hm : c.MapsAtMost m) : ∀ (q : Query) {depth : Nat} {link : Link}
    {n n' : Nat} {e : Expr}, link.relationship.mapping.length ≤ m →
      objectQuery c depth link q n = .ok e n' → e.pieces.length ≤ totalBulk m q.queries
  | ⟨fields, aggregates, filter, orderBy, limit, offset⟩, depth, link, _, _, _, hlink, h => by
    obtain ⟨rfl, hrun⟩ := objectQuery_ok h
    have hobject := relatedObject_length hm hlink
      (pageOf ⟨fields, none, filter, orderBy, limit, offset⟩)
      (fun _ => fieldsObject_length hm fields) hrun
    have hbulk := le_bulkOf m ⟨fields, none, filter, orderBy, limit, offset⟩
    rw [Query.queries, totalBulk_cons]
    dsimp only at hbulk hobject
    omega

theorem fieldsObject_length (hm : c.MapsAtMost m) {depth : Nat} :
    ∀ (fields : Option (List (String × Field))) {table : BoundTable} {n n' : Nat} {e : Expr},
      fieldsObject c depth table fields n = .ok e n' →
        e.pieces.length ≤ 10 * (fields.getD []).length + totalBulk m (fieldsQueries fields) + 6
  | none, _, _, _, _, h => by
    obtain ⟨rfl, -⟩ := fieldsObject_none_ok h
    have htag := c.length_tag_le "json_object" (.object [])
    have hobject := Expr.length_object_le []
    rw [List.map_nil, List.sum_nil] at hobject
    omega
  | some fields, _, _, _, _, h => by
    obtain ⟨entries, hentries, rfl⟩ := fieldsObject_some_ok h
    have hfields := fieldEntries_length hm fields hentries
    have htag := c.length_tag_le "json_object" (.object entries)
    have hobject := Expr.length_object_le entries
    rw [fieldsQueries, Option.getD_some]
    omega

theorem fieldEntries_length (hm : c.MapsAtMost m) {depth : Nat} :
    ∀ (fields : List (String × Field)) {table : BoundTable} {n n' : Nat}
      {entries : List (String × Expr)}, fieldEntries c depth table fields n = .ok entries n' →
        (entries.map fun e => e.2.pieces.length + 3).sum ≤
          10 * fields.length + totalBulk m (entryQueries fields)
  | [], _, _, _, _, h => by
    obtain ⟨rfl, -⟩ := fieldEntries_nil_ok h
    exact Nat.zero_le _
  | (_, field) :: fields, _, _, _, _, h => by
    obtain ⟨e, _, rest, he, hrest, rfl⟩ := fieldEntries_cons_ok h
    have hfirst := fieldValue_length hm field he
    have hothers := fieldEntries_length hm fields hrest
    rw [List.map_cons, List.sum_cons, List.length_cons, entryQueries, totalBulk_append]
    dsimp only
    omega

theorem fieldValue_length (hm : c.MapsAtMost m) {depth : Nat} :
    ∀ (field : Field) {table : BoundTable} {n n' : Nat} {e : Expr},
      fieldValue c depth table field n = .ok e n' →
        e.pieces.length ≤ totalBulk m field.queries + 7
  | .column _, _, _, _, _, h => by
    obtain ⟨rfl, -⟩ := fieldValue_column_ok h
    rw [BoundTable.length_column]
    omega
  | .relationship name q, table, _, _, _, h => by
    obtain ⟨r, e, hr, rfl, hrun⟩ := fieldValue_relationship_ok h
    have htag := c.length_tag_le "relationship" e
    -- the rows of a relationship are restricted by its mapping, and it is one that was looked up
    have hlength : e.pieces.length ≤ totalBulk m q.queries := by
      rcases hrun with ⟨-, he⟩ | ⟨-, he⟩
      · exact objectQuery_length hm q (hm _ _ _ hr) he
      · refine (Nat.le_add_right _ 9).trans (arrayQuery_length hm q ?_ he)
        rintro l ⟨⟩
        exact hm _ _ _ hr
    rw [Expr.length_asJson, Field.queries]
    omega

end

end Compile

/-- No relationship of a request maps more columns than its widest. -/
theorem Request.mapsAtMost (settings : QuerySettings) (r : Request) :
    Compile.Context.MapsAtMost { relationships := r.relationships, settings } r.widestMapping := by
  intro table name rel h
  have hrel := Compile.Context.relationshipOf_of_lookup h
  obtain ⟨t, ht, hget⟩ := Option.bind_eq_some_iff.1 hrel
  obtain ⟨member, hmember, rfl⟩ := Option.map_eq_some_iff.1 hget
  have hmem : member ∈ r.relationships.flatMap TableRelationships.relationships :=
    List.mem_flatMap.2 ⟨t, List.mem_of_find?_eq_some ht, List.mem_of_find?_eq_some hmember⟩
  exact List.le_max_of_le (List.mem_map_of_mem hmem) (Nat.le_refl _)

/-- The pieces of a statement: a fixed number for each part of its request, and for each query and
each relationship along a path twice what the widest mapping calls for. -/
theorem Request.length_select_le {settings : QuerySettings} {r : Request} {plan : Plan}
    (h : r.compile settings = .ok plan) :
    plan.select.pieces.length ≤ 120 * r.parts +
      2 * ((12 * r.widestMapping + 8) * (r.query.queries.length + r.segments)) := by
  obtain ⟨e, n, he, hs, -⟩ := Request.compile_ok h
  have hlink : Compile.LinkMapsAtMost none r.widestMapping := by rintro l ⟨⟩
  have hquery := Compile.arrayQuery_length (r.mapsAtMost settings) r.query hlink he
  have htag := Compile.Context.length_tag_le { relationships := r.relationships, settings } "query" e
  have hselect := Compile.length_ofItem_le "data"
    (Compile.Context.tag { relationships := r.relationships, settings } "query" e) none .always {}
  have htotal : Compile.totalBulk r.widestMapping r.query.queries = 120 * r.parts +
      2 * ((12 * r.widestMapping + 8) * (r.query.queries.length + r.segments)) := by
    unfold Compile.totalBulk Compile.bulkOf Request.parts Request.segments
    simp only [List.sum_map_add, List.sum_map_mul_left, Nat.mul_add, List.map_const',
      List.sum_replicate, smul_eq_mul]
    ring
  rw [hs]
  refine hselect.trans ?_
  rw [← htotal, Compile.conditionPieces_always]
  simp only [Sql.optionalSourcePieces, List.length_nil]
  omega

end DataAgent
