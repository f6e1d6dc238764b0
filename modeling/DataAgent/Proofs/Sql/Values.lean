import DataAgent.Proofs.Request.Meaning
import DataAgent.Proofs.Sql.Outcomes
import DataAgent.Proofs.Sql.Scope

/-!
# Proofs — Sql — Values

What expressions and selects evaluate to, given what their parts do. A condition is judged by whether
it is true (`Expr.Decides`); a select whose condition is judged at each of its rows keeps, orders and
pages the rows as lists are filtered, sorted and cut (`Select.eval_rows`), or, if it computes an
aggregate, yields one row for all of them (`Select.eval_group`).
-/

namespace DataAgent.Sql

/-! ### Truth values -/

@[simp] theorem Cell.truth_ofTruth (t : Option Bool) : (Cell.ofTruth t).truth = t := by
  cases t with
  | none => rfl
  | some b => cases b <;> rfl

@[simp] theorem Datum.truth_ofTruth (t : Option Bool) : (Datum.ofTruth t).truth = t :=
  Cell.truth_ofTruth t

theorem bothHold_some_true_left (t : Option Bool) : bothHold (some true) t = t := by
  rcases t with _ | _ | _ <;> rfl

theorem bothHold_some_true_right (t : Option Bool) : bothHold t (some true) = t := by
  rcases t with _ | _ | _ <;> rfl

theorem bothHold_eq_some_true {a b : Option Bool} :
    bothHold a b = some true ↔ a = some true ∧ b = some true := by
  rcases a with _ | _ | _ <;> rcases b with _ | _ | _ <;> simp [bothHold]

section Expressions

variable {db : Database} {f : Frame}

attribute [local simp] Expr.eval

theorem Expr.eval_always : Expr.always.eval db f = .ok (.ofTruth (some true)) := rfl

theorem Expr.eval_and {l r : Expr} {a b : Option Bool} (hl : l.eval db f = .ok (.ofTruth a))
    (hr : r.eval db f = .ok (.ofTruth b)) : (Expr.and l r).eval db f = .ok (.ofTruth (bothHold a b)) := by
  rw [Expr.eval, hl, hr]
  simp [bind, Except.bind, pure, Except.pure]

theorem Expr.eval_or {l r : Expr} {a b : Option Bool} (hl : l.eval db f = .ok (.ofTruth a))
    (hr : r.eval db f = .ok (.ofTruth b)) :
    (Expr.or l r).eval db f = .ok (.ofTruth (eitherHolds a b)) := by
  rw [Expr.eval, hl, hr]
  simp [bind, Except.bind, pure, Except.pure]

/-- A conjunction without its true operands has the truth of the conjunction. -/
theorem Expr.eval_conj {l r : Expr} {a b : Option Bool} (hl : l.eval db f = .ok (.ofTruth a))
    (hr : r.eval db f = .ok (.ofTruth b)) :
    (l.conj r).eval db f = .ok (.ofTruth (bothHold a b)) := by
  have true_of {e : Expr} {t : Option Bool} (he : e.eval db f = .ok (.ofTruth t))
      (h : e.isTrue = true) : t = some true := by
    rw [Expr.isTrue_iff.1 h, Expr.eval_always] at he
    have := congrArg Datum.truth (Except.ok.inj he)
    simpa using this.symm
  unfold Expr.conj
  split
  · rename_i h
    rw [true_of hl h, bothHold_some_true_left]
    exact hr
  · split
    · rename_i h
      rw [true_of hr h, bothHold_some_true_right]
      exact hl
    · exact Expr.eval_and hl hr

/-- A column of the row that its alias is bound to. -/
theorem Expr.eval_column {label : TableAlias} {row : Tuple} (h : f.env.lookup label = some row)
    (name : String) : (Expr.column (.stored (.aliased label) name)).eval db f = .ok (row.get name) := by
  simp [Env.column, ColumnRef.parts, TableRef.find?, h, pure, Except.pure]

theorem Expr.eval_compare {op : Comparison} {l r : Expr} {a b : Datum} (hl : l.eval db f = .ok a)
    (hr : r.eval db f = .ok b) : (Expr.compare op l r).eval db f = .ok (.ofTruth (a.compare op b)) := by
  rw [Expr.eval, hl, hr]
  rfl

/-! ### Conditions -/

/-- The condition has a truth value, and it is true exactly when `P` holds. -/
def Expr.Decides (db : Database) (f : Frame) (e : Expr) (P : Prop) : Prop :=
  ∃ t, e.eval db f = .ok (.ofTruth t) ∧ (t = some true ↔ P)

theorem Expr.Decides.of_eval {e : Expr} {t : Option Bool} (h : e.eval db f = .ok (.ofTruth t)) :
    e.Decides db f (t = some true) :=
  ⟨t, h, Iff.rfl⟩

theorem Expr.Decides.congr {e : Expr} {P Q : Prop} (h : e.Decides db f P) (hpq : P ↔ Q) :
    e.Decides db f Q := by
  obtain ⟨t, ht, hp⟩ := h
  exact ⟨t, ht, hp.trans hpq⟩

/-- A condition that is decided evaluates to true exactly when its statement holds. -/
theorem Expr.Decides.eval_iff {e : Expr} {P : Prop} (h : e.Decides db f P) :
    e.eval db f = .ok (.ofTruth (some true)) ↔ P := by
  obtain ⟨t, ht, hp⟩ := h
  rw [ht, ← hp]
  constructor
  · intro h
    simpa using congrArg Datum.truth (Except.ok.inj h)
  · rintro rfl
    rfl

theorem Expr.decides_always : Expr.always.Decides db f True :=
  ⟨some true, rfl, by simp⟩

theorem Expr.Decides.conj {l r : Expr} {P Q : Prop} (hl : l.Decides db f P) (hr : r.Decides db f Q) :
    (l.conj r).Decides db f (P ∧ Q) := by
  obtain ⟨a, ha, hp⟩ := hl
  obtain ⟨b, hb, hq⟩ := hr
  exact ⟨bothHold a b, Expr.eval_conj ha hb, by rw [bothHold_eq_some_true, hp, hq]⟩

theorem Expr.Decides.foldl_conj {α : Type} {make : α → Expr} {Q : α → Prop} :
    ∀ {items : List α} {e : Expr} {P : Prop}, e.Decides db f P →
      (∀ a ∈ items, (make a).Decides db f (Q a)) →
      ((items.map make).foldl .conj e).Decides db f (P ∧ ∀ a ∈ items, Q a)
  | [], _, _, he, _ => he.congr (by simp)
  | a :: items, _, _, he, h => by
    have hitems : ∀ b ∈ items, (make b).Decides db f (Q b) := fun b hb => h b (by simp [hb])
    exact (Expr.Decides.foldl_conj (he.conj (h a (by simp))) hitems).congr (by simp [and_assoc])

/-! ### Lists of truth values -/

theorem allHold_cons (t : Option Bool) (ts : List (Option Bool)) :
    allHold (t :: ts) = bothHold t (allHold ts) := by
  by_cases hf : some false ∈ ts <;> by_cases hn : none ∈ ts <;> rcases t with _ | _ | _ <;>
    simp [allHold, bothHold, hf, hn]

theorem someHolds_cons (t : Option Bool) (ts : List (Option Bool)) :
    someHolds (t :: ts) = eitherHolds t (someHolds ts) := by
  by_cases ht : some true ∈ ts <;> by_cases hn : none ∈ ts <;> rcases t with _ | _ | _ <;>
    simp [someHolds, eitherHolds, ht, hn]

theorem bothHold_assoc (a b c : Option Bool) :
    bothHold (bothHold a b) c = bothHold a (bothHold b c) := by
  rcases a with _ | _ | _ <;> rcases b with _ | _ | _ <;> rcases c with _ | _ | _ <;> rfl

theorem eitherHolds_assoc (a b c : Option Bool) :
    eitherHolds (eitherHolds a b) c = eitherHolds a (eitherHolds b c) := by
  rcases a with _ | _ | _ <;> rcases b with _ | _ | _ <;> rcases c with _ | _ | _ <;> rfl

theorem eitherHolds_some_false_left (t : Option Bool) : eitherHolds (some false) t = t := by
  rcases t with _ | _ | _ <;> rfl

theorem eitherHolds_some_false_right (t : Option Bool) : eitherHolds t (some false) = t := by
  rcases t with _ | _ | _ <;> rfl

theorem foldl_eitherHolds (ts : List (Option Bool)) (a : Option Bool) :
    ts.foldl eitherHolds a = eitherHolds a (someHolds ts) := by
  induction ts generalizing a with
  | nil => exact (eitherHolds_some_false_right a).symm
  | cons t ts ih => rw [List.foldl_cons, ih, someHolds_cons, eitherHolds_assoc]

theorem Expr.eval_foldl_conj {es : List Expr} {ts : List (Option Bool)}
    (h : List.Forall₂ (fun e t => e.eval db f = .ok (.ofTruth t)) es ts) :
    ∀ {e : Expr} {t : Option Bool}, e.eval db f = .ok (.ofTruth t) →
      (es.foldl .conj e).eval db f = .ok (.ofTruth (bothHold t (allHold ts))) := by
  induction h with
  | nil =>
    intro e t he
    rwa [show allHold [] = some true from rfl, bothHold_some_true_right]
  | cons hd _ ih =>
    intro e t he
    rw [List.foldl_cons, allHold_cons, ← bothHold_assoc]
    exact ih (Expr.eval_conj he hd)

theorem Expr.eval_foldl_or {es : List Expr} {ts : List (Option Bool)}
    (h : List.Forall₂ (fun e t => e.eval db f = .ok (.ofTruth t)) es ts) :
    ∀ {e : Expr} {t : Option Bool}, e.eval db f = .ok (.ofTruth t) →
      (es.foldl .or e).eval db f = .ok (.ofTruth (eitherHolds t (someHolds ts))) := by
  induction h with
  | nil =>
    intro e t he
    rwa [show someHolds [] = some false from rfl, eitherHolds_some_false_right]
  | cons hd _ ih =>
    intro e t he
    rw [List.foldl_cons, someHolds_cons, ← eitherHolds_assoc]
    exact ih (Expr.eval_or he hd)

end Expressions

/-! ### Rows of a select -/

theorem keepRows_eq_filter {condition : Env → Except EngineError Bool} {p : Env → Bool} :
    ∀ {rows : List Env}, (∀ row ∈ rows, condition row = .ok (p row)) →
      keepRows condition rows = .ok (rows.filter p)
  | [], _ => rfl
  | row :: rows, h => by
    have hrest : keepRows condition rows = .ok (rows.filter p) :=
      keepRows_eq_filter fun r hr => h r (by simp [hr])
    rw [keepRows, h row (by simp), hrest]
    cases hp : p row <;> simp [hp, bind, Except.bind, pure, Except.pure]

theorem orderRows_eq_mergeSort {key : Env → Except EngineError (List (Cell × Direction))}
    {k : Env → List (Cell × Direction)} {rows : List Env} (h : ∀ row ∈ rows, key row = .ok (k row)) :
    orderRows key rows = .ok (rows.mergeSort fun a b => keyLe (k a) (k b)) := by
  have hkeyed : (rows.mapM fun row => do return (← key row, row)) =
      (.ok (rows.map fun row => (k row, row)) : Except EngineError _) := by
    refine mapM_eq_ok fun row hrow => ?_
    rw [h row hrow]
    rfl
  have hsort : (rows.map fun row => (k row, row)).mergeSort (fun a b => keyLe a.1 b.1) =
      (rows.mergeSort fun a b => keyLe (k a) (k b)).map fun row => (k row, row) := by
    rw [List.map_mergeSort (s := fun a b => keyLe a.1 b.1)]
    intros
    rfl
  rw [orderRows, hkeyed]
  simp only [bind, Except.bind, pure, Except.pure, hsort, List.map_map]
  congr 1
  exact List.map_id _

variable {db : Database} {outer : Env} {s : Select} {all : List Env} {p : Env → Bool}

theorem keepRows_of_decides {condition : Expr} {rows : List Env}
    (h : ∀ row ∈ rows, condition.Decides db { env := row ++ outer } (p row = true)) :
    keepRows (fun row => do
      return (← condition.eval db { env := row ++ outer }).truth == some true) rows =
        .ok (rows.filter p) := by
  refine keepRows_eq_filter fun row hrow => ?_
  obtain ⟨t, ht, hp⟩ := h row hrow
  have hb : (t == some true) = p row := by
    rw [Bool.eq_iff_iff, ← hp, beq_iff_eq]
  simp [ht, bind, Except.bind, pure, Except.pure, hb]

/-- The rows of a select that computes no aggregate. -/
theorem Select.eval_rows {k : Env → List (Cell × Direction)}
    (hsource : evalSource db outer s.source = .ok all) (hlist : s.list.isAggregate = false)
    (hcond : ∀ row ∈ db.join all s.joins, s.condition.Decides db { env := row ++ outer } (p row = true))
    (hkey : ∀ row ∈ db.join all s.joins, evalKey db { env := row ++ outer } s.orderBy = .ok (k row)) :
    s.eval db outer = .ok ((s.limit.page (((db.join all s.joins).filter p).mergeSort
      fun a b => keyLe (k a) (k b))).map fun row => s.list.eval db row { env := row ++ outer }) := by
  obtain ⟨list, source, joins, condition, orderBy, limit⟩ := s
  have hkeep := keepRows_of_decides hcond
  have horder : orderRows (fun row => evalKey db { env := row ++ outer } orderBy)
      ((db.join all joins).filter p) = .ok (((db.join all joins).filter p).mergeSort
        fun a b => keyLe (k a) (k b)) :=
    orderRows_eq_mergeSort fun row hrow => hkey row (List.mem_filter.1 hrow).1
  simp only [Select.eval] at hsource hlist ⊢
  rw [hsource]
  simp only [bind, Except.bind, pure, Except.pure] at hkeep horder ⊢
  rw [hkeep]
  simp only [hlist, horder]
  rfl

/-- The one row of a select that computes an aggregate. -/
theorem Select.eval_group (hsource : evalSource db outer s.source = .ok all)
    (hlist : s.list.isAggregate = true)
    (hcond : ∀ row ∈ db.join all s.joins, s.condition.Decides db { env := row ++ outer } (p row = true)) :
    s.eval db outer = .ok (s.limit.page [s.list.eval db
      (((db.join all s.joins).filter p).head?.getD [])
      { env := ((db.join all s.joins).filter p).head?.getD [] ++ outer
        group := ((db.join all s.joins).filter p).map (· ++ outer) }]) := by
  obtain ⟨list, source, joins, condition, orderBy, limit⟩ := s
  have hkeep := keepRows_of_decides hcond
  simp only [Select.eval] at hsource hlist ⊢
  rw [hsource]
  simp only [bind, Except.bind, pure, Except.pure] at hkeep ⊢
  rw [hkeep]
  simp only [hlist]
  rfl

/-- Whether a select has a row: whether its condition is true of one. -/
theorem Expr.eval_existsRow {f : Frame} (hsource : evalSource db f.env s.source = .ok all)
    (hlist : s.list.isAggregate = false) (horder : s.orderBy = []) (hlimit : s.limit = {})
    (hcond : ∀ row ∈ db.join all s.joins, ∃ P, s.condition.Decides db { env := row ++ f.env } P) :
    ∃ b, (Expr.existsRow s).eval db f = .ok (.ofTruth (some b)) ∧
      (b = true ↔ ∃ row ∈ db.join all s.joins,
        s.condition.eval db { env := row ++ f.env } = .ok (.ofTruth (some true))) := by
  classical
  let holds (row : Env) : Bool :=
    decide (s.condition.eval db { env := row ++ f.env } = .ok (.ofTruth (some true)))
  have hrows := Select.eval_rows (p := holds) (k := fun _ => []) hsource hlist
    (fun row hrow => by
      obtain ⟨P, hP⟩ := hcond row hrow
      exact hP.congr (by simp [holds, hP.eval_iff]))
    (fun row _ => by rw [horder]; rfl)
  rw [Expr.eval, hrows]
  refine ⟨_, rfl, ?_⟩
  rw [Bool.not_eq_true', ← Bool.not_eq_true, List.isEmpty_iff, ← List.length_eq_zero_iff, hlimit]
  simp only [Limit.page, List.length_map, Option.getD_none, List.drop_zero, List.length_mergeSort,
    List.length_eq_zero_iff, List.filter_eq_nil_iff]
  simp [holds]

/-! ### Selects from one source -/

theorem Limit.map_page {α β : Type} (l : Limit) (f : α → β) (items : List α) :
    (l.page items).map f = l.page (items.map f) := by
  cases hl : l.limit <;> simp [Limit.page, hl, List.map_drop, List.map_take]

section OneSource

variable {rows : List Tuple} {label : TableAlias}

/-- The row that an alias is bound to. -/
def Env.row (label : TableAlias) (env : Env) : Tuple := (env.lookup label).getD []

@[simp] theorem Env.row_singleton (label : TableAlias) (row : Tuple) :
    Env.row label [(label, row)] = row := by
  simp [Env.row]

theorem filter_bound (rows : List Tuple) (label : TableAlias) (keep : Tuple → Bool) :
    (rows.map fun row => [(label, row)]).filter (fun env => keep (Env.row label env)) =
      (rows.filter keep).map fun row => [(label, row)] := by
  rw [List.filter_map]
  simp only [Function.comp_def, Env.row_singleton]

theorem decides_bound {keep : Tuple → Bool} (h : ∀ row ∈ rows, s.condition.Decides db { env := (label, row) :: outer }
      (keep row = true)) :
    ∀ env ∈ rows.map fun row => [(label, row)],
      s.condition.Decides db { env := env ++ outer } (keep (Env.row label env) = true) := by
  intro env henv
  obtain ⟨row, hrow, rfl⟩ := List.mem_map.1 henv
  rw [Env.row_singleton]
  exact h row hrow

/-- A select from one source that computes no aggregate yields its list for each row that meets its
condition, ordered by the keys and cut to the page. -/
theorem Select.eval_single (keep : Tuple → Bool) (key : Tuple → List (Cell × Direction))
    (hsource : evalSource db outer s.source = .ok (rows.map fun row => [(label, row)]))
    (hjoins : s.joins = []) (hlist : s.list.isAggregate = false)
    (hcond : ∀ row ∈ rows, s.condition.Decides db { env := (label, row) :: outer } (keep row = true))
    (hkey : ∀ row ∈ rows, evalKey db { env := (label, row) :: outer } s.orderBy = .ok (key row)) :
    s.eval db outer = .ok ((s.limit.page ((rows.filter keep).mergeSort
      fun a b => keyLe (key a) (key b))).map
        fun row => s.list.eval db [(label, row)] { env := (label, row) :: outer }) := by
  have hjoin : db.join (rows.map fun row => [(label, row)]) s.joins = rows.map fun row => [(label, row)] := by
    rw [hjoins]
    rfl
  have hsort : ((rows.filter keep).map fun row => [(label, row)]).mergeSort
      (fun a b => keyLe (key (Env.row label a)) (key (Env.row label b))) =
      ((rows.filter keep).mergeSort fun a b => keyLe (key a) (key b)).map
        fun row => [(label, row)] := by
    rw [List.map_mergeSort (s := fun a b => keyLe (key (Env.row label a)) (key (Env.row label b)))]
    intro a _ b _
    simp only [Env.row_singleton]
  have hrows := Select.eval_rows (k := fun env => key (Env.row label env)) hsource hlist
    (hjoin ▸ decides_bound hcond) fun env henv => by
      rw [hjoin] at henv
      obtain ⟨row, hrow, rfl⟩ := List.mem_map.1 henv
      rw [Env.row_singleton]
      exact hkey row hrow
  rw [hrows, hjoin, filter_bound, hsort, ← Limit.map_page, List.map_map]
  rfl

/-- A select from one source that computes an aggregate yields its list once, for all rows that meet
its condition. -/
theorem Select.eval_single_group (keep : Tuple → Bool)
    (hsource : evalSource db outer s.source = .ok (rows.map fun row => [(label, row)]))
    (hjoins : s.joins = []) (hlist : s.list.isAggregate = true) (hlimit : s.limit = {})
    (hcond : ∀ row ∈ rows, s.condition.Decides db { env := (label, row) :: outer } (keep row = true)) :
    ∃ first, s.eval db outer = .ok [s.list.eval db first
      { env := first ++ outer, group := (rows.filter keep).map fun row => (label, row) :: outer }] := by
  have hjoin : db.join (rows.map fun row => [(label, row)]) s.joins = rows.map fun row => [(label, row)] := by
    rw [hjoins]
    rfl
  have hgroup := Select.eval_group hsource hlist (hjoin ▸ decides_bound hcond)
  rw [hjoin, filter_bound, hlimit, List.map_map] at hgroup
  exact ⟨_, hgroup⟩

theorem SelectList.isAggregate_single (key : String) (e : Expr) :
    (SelectList.items [(key, e)]).isAggregate = e.isAggregate := by
  simp [SelectList.isAggregate, anyAggregateEntry]

theorem evalItems_single {f : Frame} (key : String) (e : Expr) :
    evalItems db f [(key, e)] = (e.eval db f).map fun d => [(key, d)] := by
  rw [evalItems, evalItems]
  cases e.eval db f <;> rfl

/-- A select without a source yields its items once. -/
theorem Select.eval_ofItems_alone {items : List (String × Expr)}
    (hitems : (SelectList.items items).isAggregate = false) :
    (Select.ofItems items).eval db outer = .ok [evalItems db { env := outer } items] := by
  have h : (Select.ofItems items).eval db outer = _ :=
    Select.eval_rows (p := fun _ => true) (k := fun _ => []) rfl hitems
      (fun _ _ => Expr.decides_always.congr (by simp)) (fun _ _ => rfl)
  simpa [Select.ofItems, Database.join, Limit.page, SelectList.eval] using h

/-- A select without clauses yields its items for each row of its source. -/
theorem Select.eval_ofItems {items : List (String × Expr)} {source : Source}
    (hsource : evalSource db outer (some source) = .ok (rows.map fun row => [(label, row)]))
    (hitems : (SelectList.items items).isAggregate = false) :
    Select.eval db outer { Select.ofItems items with source := some source } =
      .ok (rows.map fun row => evalItems db { env := (label, row) :: outer } items) := by
  let s : Select := { Select.ofItems items with source := some source }
  have h : s.eval db outer = _ := Select.eval_single (fun _ => true) (fun _ => []) hsource rfl hitems
    (fun _ _ => Expr.decides_always.congr (by simp)) (fun _ _ => rfl)
  have hsort : rows.mergeSort (fun _ _ => keyLe [] []) = rows :=
    List.mergeSort_of_pairwise (List.pairwise_of_forall fun _ _ => rfl)
  rw [List.filter_true, hsort] at h
  exact h

/-- A select without clauses that computes an aggregate yields its items once, for all rows of its
source. -/
theorem Select.eval_ofItems_group {items : List (String × Expr)} {source : Source}
    (hsource : evalSource db outer (some source) = .ok (rows.map fun row => [(label, row)]))
    (hitems : (SelectList.items items).isAggregate = true) :
    ∃ env, Select.eval db outer { Select.ofItems items with source := some source } =
      .ok [evalItems db { env, group := rows.map fun row => (label, row) :: outer } items] := by
  let s : Select := { Select.ofItems items with source := some source }
  have h : ∃ first, s.eval db outer = _ := Select.eval_single_group (fun _ => true) hsource rfl hitems rfl
    fun _ _ => Expr.decides_always.congr (by simp)
  obtain ⟨first, h⟩ := h
  rw [List.filter_true] at h
  exact ⟨_, h⟩

end OneSource

end DataAgent.Sql
