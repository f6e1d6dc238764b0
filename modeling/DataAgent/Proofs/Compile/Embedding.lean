import DataAgent.Proofs.Compile.Params
import DataAgent.Proofs.Sql.Sites

/-!
# Proofs — Compile — Embedding

In compiled statements JSON stays JSON (`Request.compile_keepsJson`): what is put into an object or an
array is made in the select that puts it there, every select within an expression is read as JSON, the
outermost one apart, and rows are sorted only by selects that make no JSON.

The objects of rows are made over a table or over all columns of one, whichever plan is taken, so their
columns are stored ones (`Reads`). What they hold of related rows comes out of other selects and is read
as JSON (`fieldValue_keepsJson`). Filters hold no JSON at all.
-/

namespace DataAgent

namespace Compile

open Sql

variable {c : Context} {n n' : Nat} {e : Expr} {root s : Select} {role : Role}

theorem Context.keepsJson_tag (rule : String) (h : e.KeepsJson root s role) :
    (c.tag rule e).KeepsJson root s role := by
  unfold Context.tag
  split
  · exact h.tagged rule
  · exact h

/-! ### Filters -/

theorem BoundTable.keepsJson_column (table : BoundTable) (name : String) (hrole : role ≠ .member) :
    (table.column name).KeepsJson root s role :=
  Expr.keepsJson_stored _ name hrole

theorem joinCondition_keepsJson {source target : BoundTable} {name : String} {r : Relationship}
    (h : joinCondition source target name r = .ok e) : e.KeepsJson root s .other := by
  rw [joinCondition_ok h]
  refine (Expr.keepsJson_value _).foldl_conj ?_
  intro e he
  obtain ⟨pair, -, rfl⟩ := List.mem_map.1 he
  exact .intro ⟨nofun, nofun, nofun⟩
    ⟨source.keepsJson_column _ nofun, target.keepsJson_column _ nofun⟩ trivial

theorem Walk.keepsJson {table last : BoundTable} {path : List String} {tables : List BoundTable}
    {joins : List Expr} (h : Walk c table path n tables joins last) :
    ∀ e ∈ joins, e.KeepsJson root s .other := by
  induction h with
  | nil => nofun
  | cons _ hj _ ih => exact List.forall_mem_cons.2 ⟨joinCondition_keepsJson hj, ih⟩

theorem Comparing.keepsJson {l r : BoundTable} {filter : Filter} {left right : List String}
    (h : Comparing c l r filter left right e) : e.KeepsJson root s .other := by
  have hcolumn (t : BoundTable) (name : String) :
      (c.tag "bop_col" (t.column name)).KeepsJson root s .other :=
    Context.keepsJson_tag _ (t.keepsJson_column name nofun)
  cases h with
  | isNull column => exact .intro ⟨nofun, nofun, nofun⟩ (hcolumn l _) trivial
  | value _ _ =>
    exact .intro ⟨nofun, nofun, nofun⟩
      ⟨hcolumn l _, Context.keepsJson_tag _ (Expr.keepsJson_value _)⟩ trivial
  | column _ =>
    exact .intro ⟨nofun, nofun, nofun⟩
      ⟨hcolumn l _, Context.keepsJson_tag _ (hcolumn r _)⟩ trivial
  | @list _ _ items hs =>
    split
    · exact Expr.keepsJson_value _
    · refine .intro ⟨nofun, nofun, nofun⟩ (List.forall_iff_forall_mem.2 ?_) trivial
      refine List.forall_mem_cons.2 ⟨hcolumn l _, ?_⟩
      intro o ho
      obtain ⟨item, hitem, rfl⟩ := List.mem_map.1 ho
      obtain ⟨_, v, -, rfl⟩ := exists_of_mem_forall₂ (options_ok hs).flip hitem
      exact Context.keepsJson_tag _ (Expr.keepsJson_value v)

theorem ComparisonRun.keepsJson {table : BoundTable} {filter : Filter}
    (h : ComparisonRun c table filter n n' e) : e.KeepsJson root s .other := by
  rw [h.result]
  unfold Reach.existence
  split
  · exact h.comparing.keepsJson
  · -- the rows that are reached are only looked for, so the select has no items
    refine Context.keepsJson_tag _ (.intro ⟨nofun, nofun, nofun⟩ trivial ?_)
    refine Select.KeepsJson.intro (fun h => absurd rfl h) ?_ trivial
    refine .conj ((Expr.keepsJson_value _).foldl_conj ?_) h.comparing.keepsJson
    intro e he
    rcases List.mem_append.1 he with hl | hr
    · exact h.leftWalk.keepsJson e hl
    · exact h.rightWalk.keepsJson e hr

theorem keepsJson_disjunction {es : List Expr} (h : ∀ e ∈ es, e.KeepsJson root s .other) :
    (disjunction es).KeepsJson root s .other := by
  cases es with
  | nil => exact Expr.keepsJson_value _
  | cons e es =>
    rw [List.forall_mem_cons] at h
    exact h.1.foldl_or h.2

mutual

theorem filterCondition_keepsJson {table : BoundTable} : ∀ (filter : Filter) {n n' : Nat} {e : Expr},
    filterCondition c table filter n = .ok e n' → e.KeepsJson root s .other
  | .and filters, _, _, _, h => by
    obtain ⟨es, hes, rfl⟩ := filterCondition_and_ok h
    exact (Expr.keepsJson_value _).foldl_conj (filterConditions_keepsJson filters hes)
  | .or filters, _, _, _, h => by
    obtain ⟨es, hes, rfl⟩ := filterCondition_or_ok h
    exact keepsJson_disjunction (filterConditions_keepsJson filters hes)
  | .not filter, _, _, _, h => by
    obtain ⟨e, he, rfl⟩ := filterCondition_not_ok h
    exact .intro ⟨nofun, nofun, nofun⟩ (filterCondition_keepsJson filter he) trivial
  | .unary _ _, _, _, _, h => by
    obtain ⟨run⟩ := filterCondition_unary_ok h
    exact run.keepsJson
  | .binary _ _ _, _, _, _, h => by
    obtain ⟨run⟩ := filterCondition_binary_ok h
    exact run.keepsJson
  | .list _ _ _, _, _, _, h => by
    obtain ⟨run⟩ := filterCondition_list_ok h
    exact run.keepsJson

theorem filterConditions_keepsJson {table : BoundTable} :
    ∀ (filters : List Filter) {n n' : Nat} {es : List Expr},
      filterConditions c table filters n = .ok es n' → ∀ e ∈ es, e.KeepsJson root s .other
  | [], _, _, _, h => by
    obtain ⟨rfl, rfl⟩ := filterConditions_nil_ok h
    nofun
  | filter :: filters, _, _, _, h => by
    obtain ⟨e, es, m, he, hes, rfl⟩ := filterConditions_cons_ok h
    exact List.forall_mem_cons.2
      ⟨filterCondition_keepsJson filter he, filterConditions_keepsJson filters hes⟩

end

/-! ### Pages -/

theorem rowCondition_keepsJson {table : BoundTable} {link : Option Link} {filter : Option Filter}
    (h : rowCondition c table link filter n = .ok e n') :
    (whereCondition c e).KeepsJson root s .other := by
  obtain ⟨own, join, hown, hjoin, rfl⟩ := rowCondition_ok h
  have hcondition : (own.conj join).KeepsJson root s .other := by
    refine .conj ?_ ?_
    · cases filter with
      | none =>
        obtain ⟨rfl, rfl⟩ := pure_ok_iff.1 hown
        exact Expr.keepsJson_value _
      | some f => exact filterCondition_keepsJson f hown
    · cases link with
      | none =>
        cases hjoin
        exact Expr.keepsJson_value _
      | some l => exact joinCondition_keepsJson hjoin
  unfold whereCondition
  split
  · exact hcondition
  · exact Context.keepsJson_tag _ hcondition

/-- Only here rows are sorted, and all columns are selected. -/
theorem pageRows_keepsJson {table : BoundTable} {link : Option Link} {page : Page}
    (h : rowCondition c table link page.filter n = .ok e n') :
    (pageRows c table page e).KeepsJson root := by
  refine .intro (fun _ => rfl) (List.forall_iff_forall_mem.2 ?_) trivial
  refine List.forall_mem_cons.2 ⟨rowCondition_keepsJson h, ?_⟩
  intro o ho
  obtain ⟨key, hkey, rfl⟩ := List.mem_map.1 ho
  obtain ⟨by_, -, rfl⟩ := List.mem_map.1 hkey
  exact table.keepsJson_column by_.column nofun

/-- A select of one item. -/
theorem keepsJson_item {key : String} {source : Option Source} {condition : Expr} {limit : Limit}
    (he : e.KeepsJson root { Select.ofItems [(key, e)] with source, condition, limit } .item)
    (hcondition : condition.KeepsJson root
      { Select.ofItems [(key, e)] with source, condition, limit } .other)
    (hsource : (Select.sources { Select.ofItems [(key, e)] with source, condition, limit }).Forall
      fun q => q.KeepsJson root) :
    Select.KeepsJson { Select.ofItems [(key, e)] with source, condition, limit } root :=
  .intro (fun h => absurd rfl h) ⟨he, hcondition⟩ hsource

/-- The select reads the table, or all columns of its rows. -/
def Reads (s : Select) (table : BoundTable) : Prop :=
  ∃ source, s.source = some source ∧ source.Stored ∧ source.label = table.label

theorem reads_source {table : BoundTable} (h : s.source = some table.source) : Reads s table :=
  ⟨table.source, h, .table table.name table.label, rfl⟩

theorem reads_pageRows {table rows : BoundTable} {page : Page} {condition : Expr}
    (h : s.source = some (.select (pageRows c table page condition) rows.label)) : Reads s rows :=
  ⟨_, h, .star rows.label rfl rfl rfl, rfl⟩

theorem rowsArray_keepsJson {name : String} {link : Option Link} {page : Page}
    {object : BoundTable → Compile Expr}
    (hobject : ∀ {q t n n' e}, Reads q t → object t n = .ok e n' → e.KeepsJson root q .item)
    (hrole : role = .json ∨ role = .item ∧ s = root)
    (h : rowsArray c name link page object n = .ok e n') : e.KeepsJson root s role := by
  obtain ⟨condition, m, objects, k, hc, hobjects, rfl, rfl⟩ := rowsArray_ok h
  have hobjs : objects.KeepsJson root := by
    cases hobjects with
    | direct _ run =>
      exact keepsJson_item (hobject (reads_source rfl) run) (rowCondition_keepsJson hc) trivial
    | ordered _ run =>
      exact keepsJson_item (hobject (reads_pageRows rfl) run) (Expr.keepsJson_value _)
        (pageRows_keepsJson hc)
  refine Context.keepsJson_tag _ (Expr.keepsJson_subselect hrole ?_)
  -- the objects come out of their select as text and are read as JSON one by one
  refine keepsJson_item ?_ (Expr.keepsJson_value _) hobjs
  refine .intro ⟨nofun, nofun, nofun⟩ ?_ trivial
  refine Expr.KeepsJson.asJson (.intro ⟨nofun, nofun, ?_⟩ trivial trivial)
  intro table name href
  cases List.mem_singleton.1 href
  exact ⟨rfl, rfl⟩

theorem aggregateFunction_aggregates {function column : String} {f : Sql.Function}
    (h : aggregateFunction function column = .ok f) : f ∈ [.avg, .sum, .min, .max] := by
  unfold aggregateFunction at h
  split at h <;> cases h <;> decide

/-- An aggregate is no JSON, and neither is what it is taken over. -/
theorem AggregateRun.keepsJson {table : BoundTable} {a : Aggregate} (h : AggregateRun table a e) :
    e.KeepsJson root s .member := by
  cases h with
  | rows =>
    refine .intro ⟨fun _ => .count _, ?_, ?_⟩ trivial trivial
    · intro q hq
      cases hq
    · intro table name href
      cases href
  | values column | distinct column =>
    refine .intro ⟨fun _ => .count _, ?_, ?_⟩ trivial trivial
    · intro q hq
      cases hq
    · intro table name href
      cases List.mem_singleton.1 href
  | @single column _ f named =>
    have hf := aggregateFunction_aggregates named
    have hrole : f.role [table.column column] = .other := by
      simp only [List.mem_cons, List.not_mem_nil, or_false] at hf
      rcases hf with rfl | rfl | rfl | rfl <;> rfl
    refine .intro ⟨fun _ => .aggregate _ hf, ?_, ?_⟩ ?_ trivial
    · intro q hq
      cases hq
    · intro table name href
      cases href
    · show (table.column column).KeepsJson root s (f.role [table.column column])
      rw [hrole]
      exact table.keepsJson_column column nofun

theorem aggregatesSelect_keepsJson {name : String} {link : Option Link} {page : Page}
    {aggregates : List (String × Aggregate)}
    (h : aggregatesSelect c name link page aggregates n = .ok s n') : s.KeepsJson root := by
  obtain ⟨condition, m, entries, hc, hentries, rfl, rfl⟩ := aggregatesSelect_ok h
  refine keepsJson_item (Context.keepsJson_tag _ (Expr.keepsJson_object ?_)) (Expr.keepsJson_value _)
    (pageRows_keepsJson hc)
  intro entry hentry
  obtain ⟨_, -, hrun⟩ := exists_of_mem_forall₂ hentries.flip hentry
  exact hrun.keepsJson

theorem relatedObject_keepsJson {link : Link} {filter : Option Filter}
    {object : BoundTable → Compile Expr}
    (hobject : ∀ {q t n n' e}, Reads q t → object t n = .ok e n' → e.KeepsJson root q .member)
    (hrole : role = .json ∨ role = .item ∧ s = root)
    (h : relatedObject c link filter object n = .ok e n') : e.KeepsJson root s role := by
  obtain ⟨condition, m, o, hc, ho, rfl⟩ := relatedObject_ok h
  refine Context.keepsJson_tag _ (Expr.keepsJson_subselect hrole ?_)
  refine keepsJson_item (Expr.keepsJson_object ?_) (rowCondition_keepsJson hc) trivial
  intro entry hentry
  obtain rfl := List.mem_singleton.1 hentry
  exact .intro ⟨fun _ => .array _, nofun, nofun⟩ (hobject (reads_source rfl) ho) trivial

/-! ### Queries -/

mutual

/-- The rows of a query come out of a select; with aggregates beside them they are in an object. -/
theorem arrayQuery_keepsJson : ∀ (q : Query) {depth : Nat} {name : String} {link : Option Link}
    {n n' : Nat} {e : Expr} {s : Select} {role : Role}, role = .json ∨ role = .item ∧ s = root →
    arrayQuery c depth name link q n = .ok e n' → e.KeepsJson root s role
  | ⟨fields, none, _, _, _, _⟩, _, _, _, _, _, _, _, _, hrole, h =>
    rowsArray_keepsJson (fieldsObject_keepsJson fields) hrole (arrayQuery_rows_ok rfl h)
  | ⟨fields, some aggregates, _, _, _, _⟩, _, _, _, _, _, _, s, _, _, h => by
    obtain ⟨q, m, hq, hresult⟩ := arrayQuery_aggregates_ok rfl h
    have hsummary : (Expr.subselect q).asJson.KeepsJson root s .member :=
      .asJson (Expr.keepsJson_subselect (.inl rfl) (aggregatesSelect_keepsJson hq))
    rcases hresult with ⟨-, rfl, rfl⟩ | ⟨rows, -, hrows, rfl⟩
    · exact Expr.keepsJson_object (List.forall_mem_singleton.2 hsummary)
    · have hlisted : rows.asJson.KeepsJson root s .member :=
        .asJson (rowsArray_keepsJson (fieldsObject_keepsJson fields) (.inl rfl) hrows)
      refine Expr.keepsJson_object (List.forall_mem_cons.2 ⟨hsummary, ?_⟩)
      exact List.forall_mem_singleton.2 hlisted

theorem objectQuery_keepsJson : ∀ (q : Query) {depth : Nat} {link : Link} {n n' : Nat} {e : Expr}
    {s : Select}, objectQuery c depth link q n = .ok e n' → e.KeepsJson root s .json
  | ⟨fields, _, _, _, _, _⟩, _, _, _, _, _, _, h =>
    relatedObject_keepsJson (fieldsObject_keepsJson fields) (.inl rfl) (objectQuery_ok h).2

theorem fieldsObject_keepsJson {depth : Nat} : ∀ (fields : Option (List (String × Field)))
    {table : BoundTable} {n n' : Nat} {e : Expr} {s : Select} {role : Role}, Reads s table →
    fieldsObject c depth table fields n = .ok e n' → e.KeepsJson root s role
  | none, _, _, _, _, _, _, _, h => by
    obtain ⟨rfl, rfl⟩ := fieldsObject_none_ok h
    exact Context.keepsJson_tag _ (Expr.keepsJson_object nofun)
  | some fields, _, _, _, _, _, _, hreads, h => by
    obtain ⟨entries, hentries, rfl⟩ := fieldsObject_some_ok h
    exact Context.keepsJson_tag _ (Expr.keepsJson_object (fieldEntries_keepsJson fields hreads hentries))

theorem fieldEntries_keepsJson {depth : Nat} : ∀ (fields : List (String × Field))
    {table : BoundTable} {n n' : Nat} {entries : List (String × Expr)} {s : Select}, Reads s table →
    fieldEntries c depth table fields n = .ok entries n' →
    ∀ entry ∈ entries, entry.2.KeepsJson root s .member
  | [], _, _, _, _, _, _, h => by
    obtain ⟨rfl, rfl⟩ := fieldEntries_nil_ok h
    nofun
  | (_, field) :: fields, _, _, _, _, _, hreads, h => by
    obtain ⟨e, m, rest, he, hrest, rfl⟩ := fieldEntries_cons_ok h
    exact List.forall_mem_cons.2
      ⟨fieldValue_keepsJson field hreads he, fieldEntries_keepsJson fields hreads hrest⟩

theorem fieldValue_keepsJson {depth : Nat} : ∀ (field : Field) {table : BoundTable} {n n' : Nat}
    {e : Expr} {s : Select}, Reads s table → fieldValue c depth table field n = .ok e n' →
    e.KeepsJson root s .member
  | .column name, table, _, _, _, s, ⟨source, hsource, hstored, hlabel⟩, h => by
    obtain ⟨rfl, rfl⟩ := fieldValue_column_ok h
    have hcolumn : (table.column name).Embeddable s := by
      unfold BoundTable.column
      rw [← hlabel]
      exact .column name hsource hstored
    refine .intro ⟨fun _ => hcolumn, nofun, ?_⟩ trivial trivial
    intro table name href
    cases List.mem_singleton.1 href
  | .relationship _ q, _, _, _, _, _, _, h => by
    obtain ⟨r, e, -, rfl, ⟨-, he⟩ | ⟨-, he⟩⟩ := fieldValue_relationship_ok h
    · exact .asJson (Context.keepsJson_tag _ (objectQuery_keepsJson q he))
    · exact .asJson (Context.keepsJson_tag _ (arrayQuery_keepsJson q (.inl rfl) he))

end

end Compile

/-- **JSON stays JSON.** Wherever a compiled statement puts a value into an object or an array, the value
is a column of the table that the select reads, an aggregate, or JSON made in the same select; a select
within an expression, and a column of a derived table, is the only argument of the function that reads
JSON, unless the select is the one item of the whole statement; and a select that sorts its rows selects
all columns, and makes no JSON. -/
theorem Request.compile_keepsJson {settings : QuerySettings} {r : Request} {plan : Plan}
    (h : r.compile settings = .ok plan) :
    (∀ s e, Sql.Site.Inside (.expr s .member e) (.select plan.select) → e.bare.Embeddable s) ∧
    (∀ s role q, Sql.Site.Inside (.expr s role (.subselect q)) (.select plan.select) →
      role = .json ∨ role = .item ∧ s = plan.select ∧ ∃ item, plan.select.list = .items [item]) ∧
    (∀ s role e table name, Sql.Site.Inside (.expr s role e) (.select plan.select) →
      .derived table name ∈ e.refs → role = .json ∧ e = .column (.derived table name)) ∧
    (∀ s, Sql.Site.Inside (.select s) (.select plan.select) → s.orderBy ≠ [] → s.list = .star) := by
  obtain ⟨e, n, he, hs, -⟩ := Request.compile_ok h
  have hlist : ∃ item, plan.select.list = .items [item] := by
    rw [hs]
    exact ⟨_, rfl⟩
  have hkeeps : plan.select.KeepsJson plan.select := by
    rw [hs]
    refine Compile.keepsJson_item ?_ (Sql.Expr.keepsJson_value _) trivial
    exact Compile.Context.keepsJson_tag _ (Compile.arrayQuery_keepsJson r.query (.inr ⟨rfl, rfl⟩) he)
  refine ⟨fun s e hin => (hkeeps _ hin).member rfl, ?_, ?_, fun s hin => hkeeps _ hin⟩
  · intro s role q hin
    rcases (hkeeps _ hin).subselect q rfl with hjson | ⟨hitem, hroot⟩
    · exact .inl hjson
    · exact .inr ⟨hitem, hroot, hlist⟩
  · intro s role e table name hin href
    exact (hkeeps _ hin).derived table name href

/-- Artists with their albums, sorted and with aggregates beside them: a select that sorts is inside the
statement, and all that is inside it keeps JSON. -/
theorem Music.request_keepsJson :
    ∃ plan, Music.request.compile {} = .ok plan ∧
      (∃ s, Sql.Site.Inside (.select s) (.select plan.select) ∧ s.orderBy ≠ []) ∧
      (∀ s, Sql.Site.Inside (.select s) (.select plan.select) → s.orderBy ≠ [] → s.list = .star) ∧
      ∀ s e, Sql.Site.Inside (.expr s .member e) (.select plan.select) → e.bare.Embeddable s := by
  have hcompile : Music.request.compile {} = .ok _ := rfl
  obtain ⟨hmember, -, -, horder⟩ := Request.compile_keepsJson hcompile
  refine ⟨_, hcompile, ?_, horder, hmember⟩
  -- through the objects of the artists and the summary of their albums to the rows of the albums
  exact ⟨_, Sql.Site.inside_of_follow
    (show Sql.Site.follow _ [0, 0, 0, 0, 1, 0, 0, 0, 0, 0] = some (.select _) from rfl), nofun⟩

end DataAgent
