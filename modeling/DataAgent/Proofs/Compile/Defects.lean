import DataAgent.Proofs.Compile.FilterMeaning
import DataAgent.Proofs.Request.Defects

/-!
# Proofs — Compile — Defects

A request compiles if it has no defects, and fails with the first of them otherwise
(`Request.compile_eq_error_iff_first_defect`).

A step of the compiler reports a list of defects (`Reports`) if, from any alias on, it succeeds when
the list is empty and fails with its head otherwise. Steps one after the other report their lists one
after the other (`Reports.bind`): the later list may be about a table that the earlier step gave,
of which only the name matters.
-/

namespace DataAgent

namespace Compile

open Sql

variable {α β : Type} {ds ds' : List CompileError}

/-! ### Reports -/

/-- The step gives a result that has the property if there are no defects, and fails with the first of
them otherwise. -/
def Reports (x : Compile α) (good : α → Prop) (ds : List CompileError) : Prop :=
  ∀ n, match x n with
    | .ok a _    => ds = [] ∧ good a
    | .error e _ => ds.head? = some e

/-- A result of which nothing is asked. -/
abbrev Any : α → Prop := fun _ => True

namespace Reports

variable {x : Compile α} {f : α → Compile β} {P : α → Prop} {Q : β → Prop}

theorem pure {a : α} (h : P a) : Reports (pure a) P [] := fun _ => ⟨rfl, h⟩

theorem throw (e : CompileError) : Reports (throw e : Compile α) P [e] := fun _ => rfl

/-- One step after another: the second is not reached if the first has a defect. -/
theorem bind (hx : Reports x P ds) (hf : ∀ a, P a → Reports (f a) Q ds') :
    Reports (x >>= f) Q (ds ++ ds') := by
  intro n
  have hrun := hx n
  show match EStateM.bind x f n with
    | .ok b _ => _
    | .error e _ => _
  unfold EStateM.bind
  cases h : x n with
  | error e m =>
    rw [h] at hrun
    simp [List.head?_append, hrun]
  | ok a m =>
    rw [h] at hrun
    obtain ⟨rfl, ha⟩ := hrun
    exact hf a ha m

/-- A step that has no defects, before another. -/
theorem andThen (hx : Reports x P []) (hf : ∀ a, P a → Reports (f a) Q ds) :
    Reports (x >>= f) Q ds :=
  hx.bind hf

/-- A step before another that has no defects. -/
theorem followed (hx : Reports x P ds) (hf : ∀ a, P a → Reports (f a) Q []) :
    Reports (x >>= f) Q ds := by
  have hbind : Reports (x >>= f) Q (ds ++ []) := hx.bind hf
  rwa [List.append_nil] at hbind

/-- A result put together from that of a step. -/
theorem map (hx : Reports x P ds) {g : α → β} (hg : ∀ a, P a → Q (g a)) :
    Reports (x >>= fun a => Pure.pure (g a)) Q ds :=
  hx.followed fun a ha => .pure (hg a ha)

/-- Only the first defect is seen. -/
theorem congr (hx : Reports x P ds) (h : ds'.head? = ds.head?) : Reports x P ds' := by
  intro n
  have hrun := hx n
  cases hn : x n with
  | error e m =>
    rw [hn] at hrun
    exact h.trans hrun
  | ok a m =>
    rw [hn] at hrun
    obtain ⟨rfl, ha⟩ := hrun
    exact ⟨List.head?_eq_none_iff.1 h, ha⟩

end Reports

theorem reports_ofExcept {x : Except CompileError α}
    (h : match x with | .ok _ => ds = [] | .error e => ds.head? = some e) :
    Reports (ofExcept x) Any ds := by
  intro n
  cases x with
  | ok a => exact ⟨h, trivial⟩
  | error e => exact h

theorem ofExcept_bind (x : Except CompileError α) (f : α → Except CompileError β) :
    ofExcept (x >>= f) = ofExcept x >>= fun a => ofExcept (f a) := by
  cases x <;> rfl

theorem reports_bindTable (name : String) : Reports (bindTable name) (fun t => t.name = name) [] :=
  fun _ => ⟨rfl, rfl⟩

theorem reports_freshAlias (name : String) : Reports (freshAlias name) Any [] :=
  fun _ => ⟨rfl, trivial⟩

/-! ### Filters -/

variable {c : Context}

/-- A relationship that is looked up, and what is done with it. -/
theorem Context.reports_lookup (table name : String) {f : Relationship → Compile β} {Q : β → Prop}
    {defects : Relationship → List CompileError} (h : ∀ r, Reports (f r) Q (defects r)) :
    Reports (ofExcept (c.lookup table name) >>= f) Q
      (match relationshipOf c.relationships table name with
        | none   => [.unknownRelationship table name]
        | some r => defects r) := by
  have hlookup : c.lookup table name = (relationshipOf c.relationships table name).elim
      (.error (.unknownRelationship table name)) .ok := by
    unfold Context.lookup relationshipOf
    cases (c.relationships.find? fun t => t.source = table).bind
      fun t => Members.get? t.relationships name <;> rfl
  rw [hlookup]
  cases relationshipOf c.relationships table name with
  | none => exact fun _ => rfl
  | some r => exact h r

theorem reports_joinCondition (source target : BoundTable) (name : String) (r : Relationship) :
    Reports (ofExcept (joinCondition source target name r)) Any
      (r.mappingDefects source.name name) := by
  refine reports_ofExcept ?_
  unfold joinCondition Relationship.mappingDefects
  by_cases hempty : r.mapping.isEmpty = true
  · simp [hempty]
  · simp [hempty]

theorem reports_followPath : ∀ (path : List String) (table : BoundTable) (reach : Reach),
    Reports (followPath c table path reach) Any (pathDefects c.relationships table.name path)
  | [], _, _ => .pure trivial
  | name :: path, table, reach => by
    refine Context.reports_lookup table.name name fun r => ?_
    refine (reports_bindTable r.target).andThen fun target htarget => ?_
    have hrest : Reports _ Any (r.mappingDefects table.name name ++
        pathDefects c.relationships target.name path) :=
      (reports_joinCondition table target name r).bind fun join _ =>
        reports_followPath path target
          { tables := reach.tables ++ [target], joins := reach.joins.conj join }
    refine hrest.congr ?_
    -- a mapping of no columns is the last thing that is seen of a path
    unfold Relationship.mappingDefects
    rw [htarget]
    split <;> rfl

theorem reports_columnAt (table : BoundTable) (column : ColumnPath) (reach : Reach) :
    Reports (columnAt c table column reach) Any
      (column.defects c.settings c.relationships table.name) := by
  unfold columnAt ColumnPath.defects
  split
  · exact .throw _
  · exact (reports_followPath column.path table reach).map fun _ _ => trivial

theorem reports_scalar (column : String) (json : Json) :
    Reports (ofExcept (scalar column json)) Any (json.defects column) := by
  refine reports_ofExcept ?_
  cases json with
  | num n => cases n <;> rfl
  | _ => rfl

theorem reports_operandAt (table : BoundTable) (column : String) (reach : Reach)
    (operand : Operand) :
    Reports (operandAt c table column reach operand) Any
      (operand.defects c.settings c.relationships table.name column) := by
  cases operand with
  | column other => exact (reports_columnAt table other reach).map fun _ _ => trivial
  | scalar json => exact (reports_scalar column json).map fun _ _ => trivial

/-- Results of steps that may fail, one after the other. -/
theorem reports_mapM {f : α → Except CompileError β} {defects : α → List CompileError}
    (h : ∀ a, Reports (ofExcept (f a)) Any (defects a)) :
    ∀ items : List α, Reports (ofExcept (items.mapM f)) Any (items.flatMap defects)
  | [] => .pure trivial
  | a :: items => by
    rw [List.mapM_cons, List.flatMap_cons, ofExcept_bind]
    refine (h a).bind fun b _ => ?_
    rw [ofExcept_bind]
    exact (reports_mapM h items).map fun _ _ => trivial

theorem reports_options (column : String) (values : List Json) :
    Reports (ofExcept (options c column values)) Any (values.flatMap (Json.defects column)) := by
  refine reports_mapM (fun json => ?_) values
  rw [ofExcept_bind]
  exact (reports_scalar column json).map fun _ _ => trivial

theorem reports_comparisonOf (operator column : String) :
    Reports (ofExcept (comparisonOf operator column)) Any
      (operatorDefects (comparisonNames.map Prod.fst) operator column) := by
  refine reports_ofExcept ?_
  cases h : comparisonOf operator column with
  | ok op =>
    have hmem : operator ∈ comparisonNames.map Prod.fst := by
      unfold comparisonOf at h
      split at h <;> first | decide | cases h
    exact if_pos hmem
  | error e =>
    have hnot : operator ∉ comparisonNames.map Prod.fst ∧
        e = .unsupportedOperator operator column := by
      unfold comparisonOf at h
      split at h <;> cases h
      simp_all [comparisonNames]
    rw [operatorDefects, if_neg hnot.1, hnot.2]
    rfl

mutual

theorem reports_filterCondition (table : BoundTable) : ∀ filter : Filter,
    Reports (filterCondition c table filter) Any
      (filter.defects c.settings c.relationships table.name)
  | .and filters => (reports_filterConditions table filters).map fun _ _ => trivial
  | .or filters => (reports_filterConditions table filters).map fun _ _ => trivial
  | .not filter => (reports_filterCondition table filter).map fun _ _ => trivial
  | .unary operator column => by
    have hoperator : Reports (ofExcept (checkUnaryOperator operator column.name)) Any
        (operatorDefects ["is_null"] operator column.name) := by
      refine reports_ofExcept ?_
      by_cases h : operator = "is_null" <;> simp [checkUnaryOperator, operatorDefects, h]
    exact hoperator.bind fun _ _ => (reports_columnAt table column {}).map fun _ _ => trivial
  | .binary operator column operand => by
    rw [Filter.defects, List.append_assoc]
    refine (reports_comparisonOf operator column.name).bind fun op _ => ?_
    refine (reports_columnAt table column {}).bind fun left _ => ?_
    exact (reports_operandAt table column.name left.2 operand).map fun _ _ => trivial
  | .list operator column values => by
    have hoperator : Reports (ofExcept (checkListOperator operator column.name)) Any
        (operatorDefects ["in"] operator column.name) := by
      refine reports_ofExcept ?_
      by_cases h : operator = "in" <;> simp [checkListOperator, operatorDefects, h]
    rw [Filter.defects, List.append_assoc]
    refine hoperator.bind fun _ _ => ?_
    refine (reports_columnAt table column {}).bind fun left _ => ?_
    exact (reports_options column.name values).map fun _ _ => trivial

theorem reports_filterConditions (table : BoundTable) : ∀ filters : List Filter,
    Reports (filterConditions c table filters) Any
      (Filter.listDefects c.settings c.relationships table.name filters)
  | [] => .pure trivial
  | filter :: filters =>
    (reports_filterCondition table filter).bind fun _ _ =>
      (reports_filterConditions table filters).map fun _ _ => trivial

end

/-! ### Queries -/

/-- The defects of what restricts a query to the rows related to a parent row. -/
def linkDefects : Option Link → List CompileError
  | none   => []
  | some l => l.relationship.mappingDefects l.parent.name l.name

theorem reports_rowCondition (table : BoundTable) (link : Option Link) (filter : Option Filter) :
    Reports (rowCondition c table link filter) Any
      (filter.elim [] (Filter.defects c.settings c.relationships table.name) ++ linkDefects link) := by
  have hjoin (own : Expr) : Reports (do
      let join ← match link with
        | none => Pure.pure .always
        | some l => ofExcept (joinCondition l.parent table l.name l.relationship)
      return own.conj join) Any (linkDefects link) := by
    cases link with
    | none => exact .pure trivial
    | some l =>
      exact (reports_joinCondition l.parent table l.name l.relationship).map fun _ _ => trivial
  cases filter with
  | none => exact hjoin .always
  | some f => exact (reports_filterCondition table f).bind fun own _ => hjoin own

theorem reports_rowsArray {name : String} {link : Option Link} {page : Page}
    {object : BoundTable → Compile Expr} (hobject : ∀ t, t.name = name → Reports (object t) Any ds) :
    Reports (rowsArray c name link page object) Any
      (page.filter.elim [] (Filter.defects c.settings c.relationships name) ++ linkDefects link ++
        ds) := by
  refine (reports_bindTable name).andThen fun table htable => ?_
  have hcondition := reports_rowCondition (c := c) table link page.filter
  rw [htable] at hcondition
  refine hcondition.bind fun condition _ => ?_
  -- the objects are built over the table itself, or over a second one of its name
  split
  · refine (hobject table htable).followed fun row _ => ?_
    refine Reports.andThen (P := Any) (.pure trivial) fun objects _ => ?_
    exact (reports_freshAlias "rows").map fun _ _ => trivial
  · refine (reports_bindTable name).andThen fun ordered hordered => ?_
    refine (hobject ordered hordered).followed fun row _ => ?_
    refine Reports.andThen (P := Any) (.pure trivial) fun objects _ => ?_
    exact (reports_freshAlias "rows").map fun _ _ => trivial

theorem reports_aggregateFunction (function column : String) :
    Reports (ofExcept (aggregateFunction function column)) Any
      (Aggregate.single column function).defects := by
  refine reports_ofExcept ?_
  cases h : aggregateFunction function column with
  | ok f =>
    have hmem : function ∈ ["avg", "sum", "min", "max"] := by
      unfold aggregateFunction at h
      split at h <;> first | decide | cases h
    exact if_pos hmem
  | error e =>
    have hnot : function ∉ ["avg", "sum", "min", "max"] ∧
        e = .unsupportedFunction function column := by
      unfold aggregateFunction at h
      split at h <;> cases h
      simp_all
    rw [Aggregate.defects, if_neg hnot.1, hnot.2]
    rfl

theorem reports_aggregate (table : BoundTable) (a : Aggregate) :
    Reports (ofExcept (aggregate table a)) Any a.defects := by
  cases a with
  | rowCount | columnCount _ _ => exact .pure trivial
  | single column function =>
    unfold aggregate
    rw [ofExcept_bind]
    exact (reports_aggregateFunction function column).map fun _ _ => trivial

theorem reports_aggregatesSelect (name : String) (link : Option Link) (page : Page)
    (aggregates : List (String × Aggregate)) :
    Reports (aggregatesSelect c name link page aggregates) Any
      (page.filter.elim [] (Filter.defects c.settings c.relationships name) ++ linkDefects link ++
        aggregates.flatMap fun a => a.2.defects) := by
  refine (reports_bindTable name).andThen fun table htable => ?_
  have hcondition := reports_rowCondition (c := c) table link page.filter
  rw [htable] at hcondition
  refine hcondition.bind fun condition _ => ?_
  refine (reports_bindTable name).andThen fun rows _ => ?_
  refine Reports.map (P := Any) (reports_mapM (fun a => ?_) aggregates) fun _ _ => trivial
  rw [ofExcept_bind]
  exact (reports_aggregate rows a.2).map fun _ _ => trivial

theorem reports_relatedObject {link : Link} {filter : Option Filter}
    {object : BoundTable → Compile Expr}
    (hobject : ∀ t, t.name = link.relationship.target → Reports (object t) Any ds) :
    Reports (relatedObject c link filter object) Any
      (filter.elim [] (Filter.defects c.settings c.relationships link.relationship.target) ++
        linkDefects (some link) ++ ds) := by
  refine (reports_bindTable _).andThen fun table htable => ?_
  have hcondition := reports_rowCondition (c := c) table (some link) filter
  rw [htable] at hcondition
  refine hcondition.bind fun condition _ => ?_
  exact (hobject table htable).map fun _ _ => trivial

mutual

theorem reports_arrayQuery : ∀ (q : Query) (depth : Nat) (name : String) (link : Option Link),
    Reports (arrayQuery c depth name link q) Any
      (q.defects c.settings c.relationships (depth + 1) name (linkDefects link))
  | ⟨fields, none, filter, _, _, _⟩, depth, name, link => by
    unfold arrayQuery
    exact reports_rowsArray fun t ht => ht ▸ reports_fieldsObject fields depth t
  | ⟨fields, some aggregates, filter, _, _, _⟩, depth, name, link => by
    unfold arrayQuery
    refine (reports_aggregatesSelect name link _ aggregates).bind fun s _ => ?_
    split
    · exact .pure trivial
    · refine Reports.map (P := Any) (reports_rowsArray fun t ht => ?_) fun _ _ => trivial
      exact ht ▸ reports_fieldsObject fields depth t

theorem reports_objectQuery : ∀ (q : Query) (depth : Nat) (link : Link),
    Reports (objectQuery c depth link q) Any
      (q.objectDefects c.settings c.relationships (depth + 1) link.relationship.target link.name
        (linkDefects (some link)))
  | ⟨fields, aggregates, filter, _, _, _⟩, depth, link => by
    unfold objectQuery Query.objectDefects
    split
    · exact .throw _
    · exact reports_relatedObject fun t ht => ht ▸ reports_fieldsObject fields depth t

theorem reports_fieldsObject : ∀ (fields : Option (List (String × Field))) (depth : Nat)
    (table : BoundTable),
    Reports (fieldsObject c depth table fields) Any
      (fieldsDefects c.settings c.relationships (depth + 1) table.name fields)
  | none, _, _ => .pure trivial
  | some fields, depth, table => (reports_fieldEntries fields depth table).map fun _ _ => trivial

theorem reports_fieldEntries : ∀ (fields : List (String × Field)) (depth : Nat) (table : BoundTable),
    Reports (fieldEntries c depth table fields) Any
      (memberDefects c.settings c.relationships (depth + 1) table.name fields)
  | [], _, _ => .pure trivial
  | (_, field) :: fields, depth, table =>
    (reports_fieldValue field depth table).bind fun _ _ =>
      (reports_fieldEntries fields depth table).map fun _ _ => trivial

theorem reports_fieldValue : ∀ (field : Field) (depth : Nat) (table : BoundTable),
    Reports (fieldValue c depth table field) Any
      (field.defects c.settings c.relationships (depth + 1) table.name)
  | .column _, _, _ => .pure trivial
  | .relationship name q, depth, table => by
    unfold fieldValue Field.defects
    split
    · exact .throw _
    · refine Context.reports_lookup table.name name fun r => ?_
      cases hkind : r.kind with
      | object =>
        exact (reports_objectQuery q (depth + 1) { parent := table, name, relationship := r }).map
          fun _ _ => trivial
      | array =>
        exact (reports_arrayQuery q (depth + 1) r.target
          (some { parent := table, name, relationship := r })).map fun _ _ => trivial

end

end Compile

/-- **Compile errors are exact.** A request compiles if and only if it has no defects, and fails
with an error if and only if that is the first of its defects. -/
theorem Request.compile_eq_error_iff_first_defect (settings : QuerySettings) (r : Request) :
    ((∃ plan, r.compile settings = .ok plan) ↔ r.defects settings = []) ∧
      ∀ e, r.compile settings = .error e ↔ (r.defects settings).head? = some e := by
  -- the fields of the root are at depth one, which is one more than the depth of its query
  have hrun := Compile.reports_arrayQuery (c := { relationships := r.relationships, settings })
    r.query 0 r.table none 0
  unfold Request.compile EStateM.run
  cases h : Compile.arrayQuery { relationships := r.relationships, settings } 0 r.table none
      r.query 0 with
  | ok e n =>
    rw [h] at hrun
    have hnone : r.defects settings = [] := hrun.1
    simp [h, hnone]
  | error e n =>
    rw [h] at hrun
    have hfirst : (r.defects settings).head? = some e := hrun
    have hsome : r.defects settings ≠ [] := fun hnil => by simp [hnil] at hfirst
    simp [h, hfirst, hsome]

end DataAgent
