import DataAgent.Proofs.Compile.Agreement
import DataAgent.Proofs.Compile.Legible
import DataAgent.Proofs.Sql.Tags

/-!
# Proofs — Compile — Tags

Marks do not change what a request compiles to. With marks and without them the compiler fails alike,
or draws the same aliases and gives the same statement but for the tags (`Request.compile_debugTags`).

Whether a condition is the constant true decides what is left out of a conjunction and whether a
select has a condition at all. So the two runs agree not only on what is left once tags are erased but
also on which conditions are that constant (`Expr.ErasesCondition`). Operands are compared, never
left out, and may be marked even if they are true (`Expr.Erases`).
-/

namespace DataAgent

namespace Compile

open Sql

variable {c : Context} {e e' : Expr}

/-- The context in which no marks are wanted. -/
def Context.untagged (c : Context) : Context :=
  { c with settings := { c.settings with debugTags := false } }

@[simp] theorem Context.tag_untagged (c : Context) (rule : String) (e : Expr) :
    c.untagged.tag rule e = e := rfl

/-! ### Filters -/

theorem Context.erases_tag {rule : String} (h : e.Erases e') : (c.tag rule e).Erases e' := by
  unfold Context.tag
  split
  · exact ⟨h.untag, h.candid⟩
  · exact h

theorem erases_column (table : BoundTable) (name : String) :
    (table.column name).Erases (table.column name) :=
  ⟨rfl, trivial⟩

theorem erases_value {rule : String} (v : Value) : (c.tag rule (.value v)).Erases (.value v) :=
  Context.erases_tag ⟨rfl, trivial⟩

/-- The conditions that relate rows have no marks. -/
theorem joinCondition_erases {source target : BoundTable} {name : String} {r : Relationship}
    (h : joinCondition source target name r = .ok e) : e.ErasesCondition e := by
  rw [joinCondition_ok h]
  refine .foldl_conj (List.forall₂_same.2 fun e he => ?_) Expr.erases_always
  obtain ⟨pair, -, rfl⟩ := List.mem_map.1 he
  exact ⟨⟨rfl, trivial, trivial⟩, rfl⟩

/-- The same tables are reached, and joined alike. -/
structure Reach.Erases (reach reach' : Reach) : Prop where
  tables : reach'.tables = reach.tables
  joins : reach.joins.ErasesCondition reach'.joins

theorem Reach.erases_empty : Reach.Erases {} {} := ⟨rfl, Expr.erases_always⟩

/-- The existence of rows is no constant, so a mark on it hides none. -/
theorem Reach.existence_erases {reach reach' : Reach} (hreach : reach.Erases reach')
    (h : e.ErasesCondition e') :
    (reach.existence c e).ErasesCondition (reach'.existence c.untagged e') := by
  unfold Reach.existence
  rw [hreach.tables]
  cases reach.tables with
  | nil => exact h
  | cons first others =>
    have hcondition := hreach.joins.conj h
    have hexists : (Expr.existsRow
        { list := .one, source := some first.source, joins := others.map BoundTable.join
          condition := reach.joins.conj e }).Erases
        (.existsRow
        { list := .one, source := some first.source, joins := others.map BoundTable.join
          condition := reach'.joins.conj e' }) := by
      refine ⟨?_, trivial, trivial, ?_, hcondition.candid, trivial⟩
      · simp only [Expr.untag, Select.untag, hcondition.untag]
        rfl
      · rw [hcondition.untag, hcondition.isTrue]
    refine ⟨Context.erases_tag hexists, ?_⟩
    show false = (c.tag "exists" _).isTrue
    unfold Context.tag
    split <;> rfl

theorem followPath_agree : ∀ (path : List String) (table : BoundTable) {reach reach' : Reach},
    reach.Erases reach' →
    Agree Eq (fun p p' => p.1 = p'.1 ∧ p.2.Erases p'.2) (followPath c table path reach)
      (followPath c.untagged table path reach')
  | [], _, _, _, h => .pure ⟨rfl, h⟩
  | name :: path, table, reach, reach', h => by
    refine Agree.bind (R := Eq) (.ofExcept fun _ _ => rfl) ?_
    rintro r _ rfl
    refine Agree.bind (.refl (bindTable r.target)) ?_
    rintro target _ rfl
    refine Agree.bind (.ofExcept fun e he => joinCondition_erases he) ?_
    intro join join' hjoin
    exact followPath_agree path target ⟨by rw [h.tables], h.joins.conj hjoin⟩

theorem columnAt_agree (table : BoundTable) (column : ColumnPath) {reach reach' : Reach}
    (h : reach.Erases reach') :
    Agree Eq (fun p p' => p.1.Erases p'.1 ∧ p.2.Erases p'.2) (columnAt c table column reach)
      (columnAt c.untagged table column reach') := by
  refine Agree.ite Iff.rfl (.throw _) ((followPath_agree column.path table h).map ?_)
  rintro ⟨last, reach⟩ ⟨_, reach'⟩ ⟨rfl, hreach⟩
  exact ⟨Context.erases_tag (erases_column last column.name), hreach⟩

theorem operandAt_agree (table : BoundTable) (column : String) {reach reach' : Reach}
    (h : reach.Erases reach') (operand : Operand) :
    Agree Eq (fun p p' => p.1.Erases p'.1 ∧ p.2.Erases p'.2) (operandAt c table column reach operand)
      (operandAt c.untagged table column reach' operand) := by
  cases operand with
  | column other =>
    refine (columnAt_agree table other h).map ?_
    rintro ⟨e, reach⟩ ⟨e', reach'⟩ ⟨he, hreach⟩
    exact ⟨Context.erases_tag he, hreach⟩
  | scalar json =>
    refine Agree.map (R := Eq) (.ofExcept fun _ _ => rfl) ?_
    rintro v _ rfl
    exact ⟨erases_value v, h⟩

theorem listUntag_eq_map (es : List Expr) : listUntag es = es.map Expr.untag := by
  induction es with
  | nil => rfl
  | cons e es ih => rw [listUntag, ih, List.map_cons]

theorem options_untagged (c : Context) (column : String) (values : List Json) :
    options c.untagged column values = (options c column values).map listUntag := by
  rw [funext listUntag_eq_map, options, options, ← mapM_map_comm (k := id), List.map_id]
  intro json
  rw [id_eq]
  cases scalar column json with
  | error => rfl
  | ok v =>
    exact congrArg Except.ok (erases_value v).untag.symm

theorem options_agree (column : String) (values : List Json) :
    Agree Eq (fun es es' => listUntag es = es' ∧ ListCandid es) (ofExcept (options c column values))
      (ofExcept (options c.untagged column values)) := by
  rw [options_untagged]
  refine .ofExcept_map fun items hitems => ⟨rfl, ?_⟩
  replace hitems := options_ok hitems
  induction hitems with
  | nil => trivial
  | cons hitem _ ih =>
    obtain ⟨v, -, rfl⟩ := hitem
    exact ⟨(erases_value v).candid, ih⟩

theorem erases_disjunction {es es' : List Expr} (h : List.Forall₂ Expr.ErasesCondition es es') :
    (disjunction es).ErasesCondition (disjunction es') := by
  cases h with
  | nil => exact ⟨⟨rfl, trivial⟩, rfl⟩
  | cons he hes => exact .foldl_or hes he

mutual

theorem filterCondition_agree (table : BoundTable) : ∀ filter : Filter,
    Agree Eq Expr.ErasesCondition (filterCondition c table filter)
      (filterCondition c.untagged table filter)
  | .and filters =>
    (filterConditions_agree table filters).map fun _ _ h => .foldl_conj h Expr.erases_always
  | .or filters => (filterConditions_agree table filters).map fun _ _ h => erases_disjunction h
  | .not filter =>
    (filterCondition_agree table filter).map fun _ _ h =>
      ⟨⟨congrArg Expr.not h.untag, h.candid⟩, rfl⟩
  | .unary operator column => by
    refine Agree.bind (R := Eq) (.ofExcept fun _ _ => rfl) fun _ _ _ => ?_
    refine (columnAt_agree table column Reach.erases_empty).map ?_
    rintro ⟨e, reach⟩ ⟨e', reach'⟩ ⟨he, hreach⟩
    exact Reach.existence_erases hreach ⟨⟨congrArg Expr.isNull he.untag, he.candid⟩, rfl⟩
  | .binary operator column operand => by
    refine Agree.bind (R := Eq) (.ofExcept fun _ _ => rfl) ?_
    rintro comparison _ rfl
    refine (columnAt_agree table column Reach.erases_empty).bind ?_
    rintro ⟨left, reach⟩ ⟨left', reach'⟩ ⟨hleft, hreach⟩
    refine (operandAt_agree table column.name hreach operand).map ?_
    rintro ⟨right, reach⟩ ⟨right', reach'⟩ ⟨hright, hreach⟩
    refine Reach.existence_erases hreach ⟨⟨?_, hleft.candid, hright.candid⟩, rfl⟩
    rw [Expr.untag, hleft.untag, hright.untag]
  | .list operator column values => by
    refine Agree.bind (R := Eq) (.ofExcept fun _ _ => rfl) fun _ _ _ => ?_
    refine (columnAt_agree table column Reach.erases_empty).bind ?_
    rintro ⟨e, reach⟩ ⟨e', reach'⟩ ⟨he, hreach⟩
    refine (options_agree column.name values).map ?_
    rintro items _ ⟨rfl, hitems⟩
    refine Reach.existence_erases hreach ?_
    -- membership in no list at all is the constant false, with marks and without
    cases items with
    | nil => exact ⟨⟨rfl, trivial⟩, rfl⟩
    | cons item items =>
      refine ⟨⟨?_, he.candid, hitems⟩, rfl⟩
      show Expr.isIn e.untag _ = Expr.isIn e' _
      rw [he.untag]

theorem filterConditions_agree (table : BoundTable) : ∀ filters : List Filter,
    Agree Eq (List.Forall₂ Expr.ErasesCondition) (filterConditions c table filters)
      (filterConditions c.untagged table filters)
  | [] => .pure .nil
  | filter :: filters =>
    (filterCondition_agree table filter).bind fun _ _ he =>
      (filterConditions_agree table filters).map fun _ _ hes => .cons he hes

end

/-! ### Queries -/

theorem rowCondition_agree (table : BoundTable) (link : Option Link) (filter : Option Filter) :
    Agree Eq Expr.ErasesCondition (rowCondition c table link filter)
      (rowCondition c.untagged table link filter) := by
  have hown : Agree Eq Expr.ErasesCondition (ownCondition c table filter)
      (ownCondition c.untagged table filter) := by
    cases filter with
    | none => exact .pure Expr.erases_always
    | some f => exact filterCondition_agree table f
  rw [rowCondition_eq, rowCondition_eq]
  refine hown.bind fun own own' hown => ?_
  refine Agree.map (.ofExcept fun join hjoin => ?_) fun join join' hjoin => hown.conj hjoin
  cases link with
  | none =>
    cases hjoin
    exact Expr.erases_always
  | some l => exact joinCondition_erases hjoin

/-- A condition is marked only if it is not left out. -/
theorem whereCondition_erases (h : e.ErasesCondition e') :
    (whereCondition c e).ErasesCondition (whereCondition c.untagged e') := by
  unfold whereCondition
  rw [h.isTrue]
  by_cases htrue : e.isTrue = true
  · rwa [if_pos htrue, if_pos htrue]
  · rw [if_neg htrue, if_neg htrue]
    refine ⟨Context.erases_tag h.toErases, ?_⟩
    rw [Context.tag_untagged, h.isTrue]
    unfold Context.tag
    split
    · exact Bool.eq_false_iff.2 htrue
    · rfl

theorem orderColumns_erases (table : BoundTable) (orderBy : List OrderBy) :
    orderUntag (orderColumns table orderBy) = orderColumns table orderBy ∧
      OrderCandid (orderColumns table orderBy) := by
  induction orderBy with
  | nil => exact ⟨rfl, trivial⟩
  | cons o orderBy ih => exact ⟨congrArg (List.cons (table.column o.column, o.direction)) ih.1, trivial, ih.2⟩

theorem pageRows_erases (table : BoundTable) (page : Page) (h : e.ErasesCondition e') :
    (pageRows c table page e).Erases (pageRows c.untagged table page e') := by
  have hwhere := whereCondition_erases (c := c) h
  have horder := orderColumns_erases table page.orderBy
  refine ⟨?_, trivial, trivial, ?_, hwhere.candid, horder.2⟩
  · simp only [pageRows, Select.untag, hwhere.untag, horder.1]
    rfl
  · rw [hwhere.untag, hwhere.isTrue]

theorem asJson_erases (h : e.Erases e') : e.asJson.Erases e'.asJson :=
  ⟨congrArg Expr.asJson h.untag, h.candid, trivial⟩

theorem subselect_erases {s s' : Select} (h : s.Erases s') :
    (Expr.subselect s).Erases (.subselect s') :=
  ⟨congrArg Expr.subselect h.untag, h.candid⟩

theorem source_erases (table : BoundTable) : table.source.Erases table.source := ⟨rfl, trivial⟩

theorem select_erases {s s' : Select} (h : s.Erases s') (label : TableAlias) :
    (Source.select s label).Erases (.select s' label) :=
  ⟨congrArg (Source.select · label) h.untag, h.candid⟩

theorem rowsArray_agree {name : String} {link : Option Link} {page : Page}
    {object object' : BoundTable → Compile Expr}
    (hobject : ∀ t, Agree Eq Expr.Erases (object t) (object' t)) :
    Agree Eq Expr.Erases (rowsArray c name link page object)
      (rowsArray c.untagged name link page object') := by
  refine Agree.bind (.refl (bindTable name)) ?_
  rintro table _ rfl
  refine (rowCondition_agree table link page.filter).bind fun condition condition' hcondition => ?_
  have harray {objects objects' : Select} (h : objects.Erases objects') :
      Agree Eq Expr.Erases
        (do return c.tag "array_relationship" (.subselect (arrayOf objects (← freshAlias "rows"))))
        (do return .subselect (arrayOf objects' (← freshAlias "rows"))) := by
    refine (Agree.refl (freshAlias "rows")).map ?_
    rintro rows _ rfl
    have hitem : (Expr.call .jsonGroupArray
        [.asJson (.column (.derived (.aliased rows) "j"))]).Erases
        (.call .jsonGroupArray [.asJson (.column (.derived (.aliased rows) "j"))]) :=
      ⟨rfl, ⟨trivial, trivial⟩, trivial⟩
    refine Context.erases_tag (subselect_erases ?_)
    exact Select.erases_single hitem (select_erases h rows) Expr.erases_always {}
  refine Agree.ite Iff.rfl ?_ ?_
  · refine (hobject table).bind fun e e' he => ?_
    refine Agree.bind (R := Select.Erases) (.pure ?_) fun _ _ h => harray h
    exact Select.erases_single he (source_erases table) (whereCondition_erases hcondition) page.limit
  · refine Agree.bind (.refl (bindTable name)) ?_
    rintro ordered _ rfl
    refine (hobject ordered).bind fun e e' he => ?_
    refine Agree.bind (R := Select.Erases) (.pure ?_) fun _ _ h => harray h
    exact Select.erases_single he (select_erases (pageRows_erases table page hcondition) ordered.label)
      Expr.erases_always {}

/-- Aggregates are over columns, which have no marks. -/
theorem aggregateEntries_erases {table : BoundTable} {aggregates : List (String × Aggregate)}
    {entries : List (String × Expr)}
    (h : List.Forall₂ (fun a e => e.1 = a.1 ∧ AggregateRun table a.2 e.2) aggregates entries) :
    (Expr.object entries).Erases (.object entries) := by
  suffices hentries : entryUntag entries = entries ∧ EntriesCandid entries from
    ⟨congrArg Expr.object hentries.1, hentries.2⟩
  induction h with
  | nil => exact ⟨rfl, trivial⟩
  | @cons a entry _ entries he _ ih =>
    obtain ⟨_, a⟩ := a
    obtain ⟨key, e⟩ := entry
    have hsame : e.untag = e ∧ e.Candid := by
      cases he.2 with
      | rows | values | distinct => exact ⟨rfl, trivial⟩
      | single _ => exact ⟨rfl, trivial, trivial⟩
    exact ⟨congrArg₂ List.cons (congrArg (Prod.mk key) hsame.1) ih.1, hsame.2, ih.2⟩

theorem aggregatesSelect_agree {name : String} {link : Option Link} {page : Page}
    {aggregates : List (String × Aggregate)} :
    Agree Eq Select.Erases (aggregatesSelect c name link page aggregates)
      (aggregatesSelect c.untagged name link page aggregates) := by
  refine Agree.bind (.refl (bindTable name)) ?_
  rintro table _ rfl
  refine (rowCondition_agree table link page.filter).bind fun condition condition' hcondition => ?_
  refine Agree.bind (.refl (bindTable name)) ?_
  rintro rows _ rfl
  refine Agree.map (R := fun es es' => (Expr.object es).Erases (.object es'))
    (.ofExcept fun entries hentries => aggregateEntries_erases (aggregateEntries_ok hentries)) ?_
  intro entries entries' hentries
  exact Select.erases_single (Context.erases_tag hentries)
    (select_erases (pageRows_erases table page hcondition) rows.label) Expr.erases_always {}

theorem relatedObject_agree {link : Link} {filter : Option Filter}
    {object object' : BoundTable → Compile Expr}
    (hobject : ∀ t, Agree Eq Expr.Erases (object t) (object' t)) :
    Agree Eq Expr.Erases (relatedObject c link filter object)
      (relatedObject c.untagged link filter object') := by
  refine Agree.bind (.refl (bindTable _)) ?_
  rintro table _ rfl
  refine (rowCondition_agree table (some link) filter).bind fun condition condition' hcondition => ?_
  refine (hobject table).map fun row row' hrow => ?_
  have hitem : (Expr.object [("rows", .call .jsonArray [row])]).Erases
      (.object [("rows", .call .jsonArray [row'])]) := by
    refine ⟨?_, ⟨hrow.candid, trivial⟩, trivial⟩
    simp only [Expr.untag, entryUntag, listUntag, hrow.untag]
  refine Context.erases_tag (subselect_erases ?_)
  exact Select.erases_single hitem (source_erases table) (whereCondition_erases hcondition) {}

mutual

theorem arrayQuery_agree : ∀ (q : Query) (depth : Nat) (name : String) (link : Option Link),
    Agree Eq Expr.Erases (arrayQuery c depth name link q) (arrayQuery c.untagged depth name link q)
  | ⟨fields, none, _, _, _, _⟩, depth, name, link => by
    unfold arrayQuery
    exact rowsArray_agree fun t => fieldsObject_agree fields depth t
  | ⟨fields, some aggregates, _, _, _, _⟩, depth, name, link => by
    unfold arrayQuery
    refine aggregatesSelect_agree.bind fun s s' hs => ?_
    have hfirst := asJson_erases (subselect_erases hs)
    refine Agree.ite Iff.rfl (.pure ?_) ?_
    · refine ⟨?_, hfirst.candid, trivial⟩
      rw [Expr.untag, entryUntag, hfirst.untag]
      rfl
    · refine (rowsArray_agree fun t => fieldsObject_agree fields depth t).map fun rows rows' hrows => ?_
      have hlast := asJson_erases hrows
      refine ⟨?_, hfirst.candid, hlast.candid, trivial⟩
      rw [Expr.untag, entryUntag, hfirst.untag, entryUntag, hlast.untag]
      rfl

theorem objectQuery_agree : ∀ (q : Query) (depth : Nat) (link : Link),
    Agree Eq Expr.Erases (objectQuery c depth link q) (objectQuery c.untagged depth link q)
  | ⟨fields, _, _, _, _, _⟩, depth, link => by
    unfold objectQuery
    exact Agree.ite Iff.rfl (.throw _) (relatedObject_agree fun t => fieldsObject_agree fields depth t)

theorem fieldsObject_agree : ∀ (fields : Option (List (String × Field))) (depth : Nat)
    (table : BoundTable),
    Agree Eq Expr.Erases (fieldsObject c depth table fields) (fieldsObject c.untagged depth table fields)
  | none, _, _ => .pure (Context.erases_tag ⟨rfl, trivial⟩)
  | some fields, depth, table =>
    (fieldEntries_agree fields depth table).map fun _ _ hentries => Context.erases_tag hentries

theorem fieldEntries_agree : ∀ (fields : List (String × Field)) (depth : Nat) (table : BoundTable),
    Agree Eq (fun es es' => (Expr.object es).Erases (.object es')) (fieldEntries c depth table fields)
      (fieldEntries c.untagged depth table fields)
  | [], _, _ => .pure ⟨rfl, trivial⟩
  | (key, field) :: fields, depth, table => by
    refine (fieldValue_agree field depth table).bind fun e e' he => ?_
    refine (fieldEntries_agree fields depth table).map fun es es' hes => ⟨?_, he.candid, hes.candid⟩
    rw [Expr.untag, entryUntag, he.untag, Expr.object.inj hes.untag]

theorem fieldValue_agree : ∀ (field : Field) (depth : Nat) (table : BoundTable),
    Agree Eq Expr.Erases (fieldValue c depth table field) (fieldValue c.untagged depth table field)
  | .column name, _, table => .pure (erases_column table name)
  | .relationship name q, depth, table => by
    unfold fieldValue
    refine Agree.ite Iff.rfl (.throw _) ?_
    refine Agree.bind (R := Eq) (.ofExcept fun _ _ => rfl) ?_
    rintro r _ rfl
    cases r.kind with
    | object =>
      exact (objectQuery_agree q (depth + 1) { parent := table, name, relationship := r }).map
        fun e e' he => asJson_erases (Context.erases_tag he)
    | array =>
      exact (arrayQuery_agree q (depth + 1) r.target
        (some { parent := table, name, relationship := r })).map
        fun e e' he => asJson_erases (Context.erases_tag he)

end

end Compile

/-- **Marks do not change what a statement means.** With marks and without them a request fails with
the same error, or compiles to the same statement but for its tags, with the same conditions left out,
the same parameters and a text of the same tokens. -/
theorem Request.compile_debugTags (settings : QuerySettings) (r : Request) :
    (∃ e, r.compile { settings with debugTags := true } = .error e ∧
      r.compile { settings with debugTags := false } = .error e) ∨
    ∃ tagged plain, r.compile { settings with debugTags := true } = .ok tagged ∧
      r.compile { settings with debugTags := false } = .ok plain ∧
      { tagged with select := tagged.select.untag } = plain ∧
      tagged.select.Candid ∧
      tagged.select.statement.params = plain.select.statement.params ∧
      ∃ tokens, Sql.lex tagged.select.statement.text.toList = some tokens ∧
        Sql.lex plain.select.statement.text.toList = some tokens := by
  let c : Compile.Context :=
    { relationships := r.relationships, settings := { settings with debugTags := true } }
  have hrun := Compile.arrayQuery_agree (c := c) r.query 0 r.table none (Eq.refl 0)
  generalize htagged : Compile.arrayQuery c 0 r.table none r.query 0 = tagged at hrun
  generalize hplain : Compile.arrayQuery c.untagged 0 r.table none r.query 0 = plain at hrun
  cases hrun with
  | error => exact .inl ⟨_, Request.compile_of_error htagged, Request.compile_of_error hplain⟩
  | @ok e e' n n' he hn =>
    have hmark : (c.tag "query" e).Erases e' := Compile.Context.erases_tag he
    have htagged' := Request.compile_of_ok htagged
    have hplain' : r.compile { settings with debugTags := false } = .ok _ :=
      Request.compile_of_ok hplain
    have hcandid : (Sql.Select.ofItems [("data", c.tag "query" e)]).Candid :=
      ⟨⟨hmark.candid, trivial⟩, trivial, rfl, trivial, trivial⟩
    have huntag : (Sql.Select.ofItems [("data", c.tag "query" e)]).untag =
        .ofItems [("data", e')] := by
      rw [Sql.Select.ofItems, Sql.Select.untag, Sql.SelectList.untag, Sql.entryUntag, hmark.untag]
      rfl
    obtain ⟨hlex, hparams⟩ := Sql.Reads.statement (Sql.Select.reads _)
      (Request.legible_compile htagged').quiet
    obtain ⟨hlex', hparams'⟩ := Sql.Reads.statement (Sql.Select.reads _)
      (Request.legible_compile hplain').quiet
    -- both texts have the lexemes of the erased statement, the one with tags put in
    have hspoken := hcandid.spoken_lexemes
    rw [huntag] at hspoken
    refine .inr ⟨_, _, htagged', hplain', congrArg (Plan.mk r.table · "data") huntag, hcandid, ?_, _,
      hlex, ?_⟩
    · refine hparams.trans ?_
      rw [← Sql.Lexeme.values_spoken, hspoken]
      exact hparams'.symm
    · rw [← Sql.Lexeme.tokens_spoken, hspoken]
      exact hlex'

end DataAgent
