import DataAgent.Proofs.Compile.FilterMeaning
import DataAgent.Proofs.Request.Meaning

/-!
# Proofs — Compile — Lookups

The compiler sees the relationships of a request only through those it looks up. A query looks up a
relationship for each of its relationship fields and for each step of a path in its filters, on the
table that the relationships before it lead to (`Query.lookups`). Two lists of relationships that give
the same for each of these compile to the same statement or fail with the same error
(`Request.compile_of_lookups`).

The first list decides which tables are reached. The second reaches the same ones, because the walk goes
on from what was looked up, on which the two agree.

So it does not matter what is listed for a table after its first entry, in which order the tables are
listed, and what is listed for tables that are not reached.
-/

namespace DataAgent

/-! ### What is looked up -/

/-- A relationship that is looked up: its name, on a table. -/
structure Lookup where
  table : String
  name : String
  deriving DecidableEq, Repr

/-- What a path from a table looks up. -/
def pathLookups (rels : List TableRelationships) : String → List String → List Lookup
  | _, [] => []
  | table, name :: path =>
    { table, name } :: match relationshipOf rels table name with
      | none   => []
      | some r => pathLookups rels r.target path

/-- What an operand looks up. -/
def Operand.lookups (rels : List TableRelationships) (table : String) : Operand → List Lookup
  | .column other => pathLookups rels table other.path
  | .scalar _     => []

mutual

/-- What a filter on the rows of a table looks up. -/
def Filter.lookups (rels : List TableRelationships) (table : String) : Filter → List Lookup
  | .and filters | .or filters => Filter.listLookups rels table filters
  | .not filter => filter.lookups rels table
  | .unary _ column | .list _ column _ => pathLookups rels table column.path
  | .binary _ column operand => pathLookups rels table column.path ++ operand.lookups rels table

/-- What filters look up. -/
def Filter.listLookups (rels : List TableRelationships) (table : String) : List Filter → List Lookup
  | [] => []
  | filter :: filters => filter.lookups rels table ++ Filter.listLookups rels table filters

end

mutual

/-- What a query over a table looks up. -/
def Query.lookups (rels : List TableRelationships) (table : String) : Query → List Lookup
  | ⟨fields, _, filter, _, _, _⟩ =>
    filter.elim [] (Filter.lookups rels table) ++ fieldsLookups rels table fields

/-- What fields, if there are any, look up. -/
def fieldsLookups (rels : List TableRelationships) (table : String) :
    Option (List (String × Field)) → List Lookup
  | none        => []
  | some fields => memberLookups rels table fields

/-- What fields look up. -/
def memberLookups (rels : List TableRelationships) (table : String) :
    List (String × Field) → List Lookup
  | [] => []
  | (_, field) :: fields => field.lookups rels table ++ memberLookups rels table fields

/-- What a field looks up: its relationship, and what its query does on the table that leads to. -/
def Field.lookups (rels : List TableRelationships) (table : String) : Field → List Lookup
  | .column _ => []
  | .relationship name query =>
    { table, name } :: match relationshipOf rels table name with
      | none   => []
      | some r => query.lookups rels r.target

end

namespace Compile

open Sql

variable {α : Type}

/-! ### Filters -/

/-- The context with other relationships. -/
def Context.relatedBy (c : Context) (rels : List TableRelationships) : Context :=
  { c with relationships := rels }

/-- Two contexts give the same for each of some lookups. -/
def Context.Agrees (c c' : Context) (lookups : List Lookup) : Prop :=
  ∀ l ∈ lookups, c.lookup l.table l.name = c'.lookup l.table l.name

variable {c : Context} {rels : List TableRelationships}

theorem Context.Agrees.of_append {c' : Context} {ls ms : List Lookup} (h : c.Agrees c' (ls ++ ms)) :
    c.Agrees c' ls ∧ c.Agrees c' ms :=
  List.forall_mem_append.1 h

/-- A table that is bound has the name it is bound under. -/
theorem bindTable_congr {name : String} {f g : BoundTable → Compile α}
    (h : ∀ t, t.name = name → f t = g t) : bindTable name >>= f = bindTable name >>= g := by
  funext n
  exact congrFun (h { name, label := { name, index := n } } rfl) (n + 1)

/-- A relationship that both contexts find, or neither, and what is done with it. -/
theorem Context.lookup_congr {table name : String} {after : Relationship → List Lookup}
    {f g : Relationship → Compile α}
    (h : c.Agrees (c.relatedBy rels) ({ table, name } ::
      match relationshipOf c.relationships table name with
        | none   => []
        | some r => after r))
    (hfg : ∀ r, c.Agrees (c.relatedBy rels) (after r) → f r = g r) :
    ofExcept (c.lookup table name) >>= f = ofExcept ((c.relatedBy rels).lookup table name) >>= g := by
  obtain ⟨hhere, hafter⟩ := List.forall_mem_cons.1 h
  rw [← show c.lookup table name = (c.relatedBy rels).lookup table name from hhere]
  cases hr : c.lookup table name with
  | error e => rfl
  | ok r =>
    rw [Context.relationshipOf_of_lookup hr] at hafter
    exact hfg r hafter

theorem followPath_relatedBy : ∀ (path : List String) (table : BoundTable) (reach : Reach),
    c.Agrees (c.relatedBy rels) (pathLookups c.relationships table.name path) →
      followPath c table path reach = followPath (c.relatedBy rels) table path reach
  | [], _, _, _ => rfl
  | name :: path, table, reach, h => by
    refine Context.lookup_congr h fun r hr => bindTable_congr fun target htarget => ?_
    refine bind_congr fun join => followPath_relatedBy path target _ ?_
    rw [htarget]
    exact hr

theorem columnAt_relatedBy (table : BoundTable) (column : ColumnPath) (reach : Reach)
    (h : c.Agrees (c.relatedBy rels) (pathLookups c.relationships table.name column.path)) :
    columnAt c table column reach = columnAt (c.relatedBy rels) table column reach := by
  unfold columnAt
  rw [followPath_relatedBy column.path table reach h]
  rfl

theorem operandAt_relatedBy (table : BoundTable) (column : String) (reach : Reach) (operand : Operand)
    (h : c.Agrees (c.relatedBy rels) (operand.lookups c.relationships table.name)) :
    operandAt c table column reach operand = operandAt (c.relatedBy rels) table column reach operand := by
  cases operand with
  | column other =>
    rw [operandAt, operandAt, columnAt_relatedBy table other reach h]
    rfl
  | scalar value => rfl

mutual

theorem filterCondition_relatedBy (table : BoundTable) : ∀ filter : Filter,
    c.Agrees (c.relatedBy rels) (filter.lookups c.relationships table.name) →
      filterCondition c table filter = filterCondition (c.relatedBy rels) table filter
  | .and filters, h | .or filters, h => by
    rw [filterCondition, filterCondition, filterConditions_relatedBy table filters h]
  | .not filter, h => by
    rw [filterCondition, filterCondition, filterCondition_relatedBy table filter h]
  | .unary operator column, h => by
    rw [filterCondition, filterCondition, columnAt_relatedBy table column {} h]
    rfl
  | .binary operator column operand, h => by
    obtain ⟨hcolumn, hoperand⟩ := h.of_append
    rw [filterCondition, filterCondition, columnAt_relatedBy table column {} hcolumn]
    refine bind_congr fun comparison => bind_congr fun found => ?_
    obtain ⟨left, reach⟩ := found
    dsimp only
    rw [operandAt_relatedBy table column.name reach operand hoperand]
    rfl
  | .list operator column values, h => by
    rw [filterCondition, filterCondition, columnAt_relatedBy table column {} h]
    rfl

theorem filterConditions_relatedBy (table : BoundTable) : ∀ filters : List Filter,
    c.Agrees (c.relatedBy rels) (Filter.listLookups c.relationships table.name filters) →
      filterConditions c table filters = filterConditions (c.relatedBy rels) table filters
  | [], _ => rfl
  | filter :: filters, h => by
    obtain ⟨hfilter, hfilters⟩ := h.of_append
    rw [filterConditions, filterConditions, filterCondition_relatedBy table filter hfilter,
      filterConditions_relatedBy table filters hfilters]

end

/-! ### Queries -/

/-- What an optional filter on the rows of a table looks up. -/
abbrev ownLookups (rels : List TableRelationships) (table : String) (filter : Option Filter) :
    List Lookup :=
  filter.elim [] (Filter.lookups rels table)

theorem rowCondition_relatedBy (table : BoundTable) (link : Option Link) (filter : Option Filter)
    (h : c.Agrees (c.relatedBy rels) (ownLookups c.relationships table.name filter)) :
    rowCondition c table link filter = rowCondition (c.relatedBy rels) table link filter := by
  cases filter with
  | none => rfl
  | some f =>
    simp only [rowCondition, filterCondition_relatedBy table f h]

theorem rowsArray_relatedBy {name : String} {link : Option Link} {page : Page}
    {object object' : BoundTable → Compile Expr}
    (h : c.Agrees (c.relatedBy rels) (ownLookups c.relationships name page.filter))
    (hobject : ∀ t, t.name = name → object t = object' t) :
    rowsArray c name link page object = rowsArray (c.relatedBy rels) name link page object' := by
  refine bindTable_congr fun table htable => ?_
  rw [rowCondition_relatedBy table link page.filter (by rwa [htable])]
  refine bind_congr fun condition => ?_
  -- the objects are built over the table itself, or over a second one of its name
  by_cases horder : page.orderBy.isEmpty = true
  · simp only [if_pos horder, hobject table htable]
    rfl
  · have hordered : ∀ rest : BoundTable → Expr → Compile Expr,
        (bindTable name >>= fun ordered => object ordered >>= rest ordered) =
          bindTable name >>= fun ordered => object' ordered >>= rest ordered :=
      fun rest => bindTable_congr fun ordered ho => by rw [hobject ordered ho]
    simp only [if_neg horder, pure_bind]
    exact hordered _

theorem aggregatesSelect_relatedBy {name : String} {link : Option Link} {page : Page}
    (aggregates : List (String × Aggregate))
    (h : c.Agrees (c.relatedBy rels) (ownLookups c.relationships name page.filter)) :
    aggregatesSelect c name link page aggregates =
      aggregatesSelect (c.relatedBy rels) name link page aggregates := by
  refine bindTable_congr fun table htable => ?_
  rw [rowCondition_relatedBy table link page.filter (by rwa [htable])]
  rfl

theorem relatedObject_relatedBy {link : Link} {filter : Option Filter}
    {object object' : BoundTable → Compile Expr}
    (h : c.Agrees (c.relatedBy rels) (ownLookups c.relationships link.relationship.target filter))
    (hobject : ∀ t, t.name = link.relationship.target → object t = object' t) :
    relatedObject c link filter object = relatedObject (c.relatedBy rels) link filter object' := by
  refine bindTable_congr fun table htable => ?_
  rw [rowCondition_relatedBy table (some link) filter (by rwa [htable]), hobject table htable]
  rfl

mutual

theorem arrayQuery_relatedBy : ∀ (q : Query) (depth : Nat) (name : String) (link : Option Link),
    c.Agrees (c.relatedBy rels) (q.lookups c.relationships name) →
      arrayQuery c depth name link q = arrayQuery (c.relatedBy rels) depth name link q
  | ⟨fields, none, filter, _, _, _⟩, depth, name, link, h => by
    obtain ⟨hfilter, hfields⟩ := h.of_append
    exact rowsArray_relatedBy hfilter fun t ht => fieldsObject_relatedBy fields depth t (by rwa [ht])
  | ⟨fields, some aggregates, filter, _, _, _⟩, depth, name, link, h => by
    obtain ⟨hfilter, hfields⟩ := h.of_append
    have hrows {page : Page} (hpage : page.filter = filter) :
        rowsArray c name link page (fun t => fieldsObject c depth t fields) =
          rowsArray (c.relatedBy rels) name link page fun t => fieldsObject (c.relatedBy rels) depth t fields :=
      rowsArray_relatedBy (by rwa [hpage]) fun t ht => fieldsObject_relatedBy fields depth t (by rwa [ht])
    rw [arrayQuery, arrayQuery, aggregatesSelect_relatedBy aggregates hfilter]
    refine bind_congr fun summary => ?_
    rw [hrows rfl]

theorem objectQuery_relatedBy : ∀ (q : Query) (depth : Nat) (link : Link),
    c.Agrees (c.relatedBy rels) (q.lookups c.relationships link.relationship.target) →
      objectQuery c depth link q = objectQuery (c.relatedBy rels) depth link q
  | ⟨fields, aggregates, filter, _, _, _⟩, depth, link, h => by
    obtain ⟨hfilter, hfields⟩ := h.of_append
    rw [objectQuery, objectQuery]
    refine ite_congr rfl (fun _ => rfl) fun _ => ?_
    exact relatedObject_relatedBy hfilter fun t ht => fieldsObject_relatedBy fields depth t (by rwa [ht])

theorem fieldsObject_relatedBy : ∀ (fields : Option (List (String × Field))) (depth : Nat)
    (table : BoundTable), c.Agrees (c.relatedBy rels) (fieldsLookups c.relationships table.name fields) →
      fieldsObject c depth table fields = fieldsObject (c.relatedBy rels) depth table fields
  | none, _, _, _ => rfl
  | some fields, depth, table, h => by
    rw [fieldsObject, fieldsObject, fieldEntries_relatedBy fields depth table h]
    rfl

theorem fieldEntries_relatedBy : ∀ (fields : List (String × Field)) (depth : Nat) (table : BoundTable),
    c.Agrees (c.relatedBy rels) (memberLookups c.relationships table.name fields) →
      fieldEntries c depth table fields = fieldEntries (c.relatedBy rels) depth table fields
  | [], _, _, _ => rfl
  | (key, field) :: fields, depth, table, h => by
    obtain ⟨hfield, hfields⟩ := h.of_append
    rw [fieldEntries, fieldEntries, fieldValue_relatedBy field depth table hfield,
      fieldEntries_relatedBy fields depth table hfields]

theorem fieldValue_relatedBy : ∀ (field : Field) (depth : Nat) (table : BoundTable),
    c.Agrees (c.relatedBy rels) (field.lookups c.relationships table.name) →
      fieldValue c depth table field = fieldValue (c.relatedBy rels) depth table field
  | .column _, _, _, _ => rfl
  | .relationship name q, depth, table, h => by
    rw [fieldValue, fieldValue]
    refine ite_congr rfl (fun _ => rfl) fun _ => Context.lookup_congr h fun r hr => ?_
    cases r.kind with
    | object =>
      have hquery := objectQuery_relatedBy q (depth + 1) { parent := table, name, relationship := r } hr
      simp only [hquery]
      rfl
    | array =>
      have hquery := arrayQuery_relatedBy q (depth + 1) r.target
        (some { parent := table, name, relationship := r }) hr
      simp only [hquery]
      rfl

end

end Compile

/-! ### Lists of relationships -/

/-- The entries for tables that no earlier entry is for, and that are not among those seen. -/
def firstEntries (seen : List String) : List TableRelationships → List TableRelationships
  | [] => []
  | t :: rels =>
    if t.source ∈ seen then firstEntries seen rels else t :: firstEntries (t.source :: seen) rels

/-- Entries in another order, in which those for one table have kept theirs. -/
inductive Reordered : List TableRelationships → List TableRelationships → Prop
  | nil : Reordered [] []
  | cons (t : TableRelationships) {rels rels' : List TableRelationships} (h : Reordered rels rels') :
      Reordered (t :: rels) (t :: rels')
  | swap {t u : TableRelationships} (h : t.source ≠ u.source) (rels : List TableRelationships) :
      Reordered (t :: u :: rels) (u :: t :: rels)
  | trans {rels₁ rels₂ rels₃ : List TableRelationships} (h : Reordered rels₁ rels₂)
      (h' : Reordered rels₂ rels₃) : Reordered rels₁ rels₃

/-- Entries have been added for tables of a kind. -/
inductive Added (kind : String → Prop) : List TableRelationships → List TableRelationships → Prop
  | nil : Added kind [] []
  | keep (t : TableRelationships) {rels rels' : List TableRelationships} (h : Added kind rels rels') :
      Added kind (t :: rels) (t :: rels')
  | add {t : TableRelationships} (ht : kind t.source) {rels rels' : List TableRelationships}
      (h : Added kind rels rels') : Added kind rels (t :: rels')

/-- The first entry for a table. -/
def entryFor (rels : List TableRelationships) (table : String) : Option TableRelationships :=
  rels.find? fun t => t.source = table

theorem entryFor_cons (t : TableRelationships) (rels : List TableRelationships) (table : String) :
    entryFor (t :: rels) table = if t.source = table then some t else entryFor rels table := by
  unfold entryFor
  by_cases h : t.source = table <;> simp [h]

/-- A lookup sees the first entry for its table only. -/
theorem Compile.Context.lookup_of_entryFor {settings : QuerySettings}
    {rels rels' : List TableRelationships} {table : String}
    (h : entryFor rels table = entryFor rels' table) (name : String) :
    (Context.mk rels settings).lookup table name = (Context.mk rels' settings).lookup table name := by
  unfold entryFor at h
  simp only [Context.lookup, h]

theorem entryFor_firstEntries {table : String} : ∀ (rels : List TableRelationships)
    (seen : List String), table ∉ seen → entryFor (firstEntries seen rels) table = entryFor rels table
  | [], _, _ => rfl
  | t :: rels, seen, h => by
    rw [firstEntries, entryFor_cons]
    by_cases hseen : t.source ∈ seen
    · have hother : t.source ≠ table := fun heq => h (heq ▸ hseen)
      rw [if_pos hseen, if_neg hother]
      exact entryFor_firstEntries rels seen h
    · rw [if_neg hseen, entryFor_cons]
      by_cases heq : t.source = table
      · rw [if_pos heq, if_pos heq]
      · rw [if_neg heq, if_neg heq]
        exact entryFor_firstEntries rels (t.source :: seen)
          (List.not_mem_cons_of_ne_of_not_mem (Ne.symm heq) h)

theorem Reordered.entryFor {rels rels' : List TableRelationships} (h : Reordered rels rels')
    (table : String) : entryFor rels table = entryFor rels' table := by
  induction h with
  | nil => rfl
  | cons t _ ih => rw [entryFor_cons, entryFor_cons, ih]
  | @swap t u h rels =>
    simp only [entryFor_cons]
    by_cases ht : t.source = table
    · have hu : u.source ≠ table := fun hu => h (ht.trans hu.symm)
      rw [if_pos ht, if_neg hu, if_pos ht]
    · rw [if_neg ht, if_neg ht]
  | trans _ _ ih ih' => exact ih.trans ih'

/-- Entries for different tables may be put in any order. -/
theorem Reordered.of_perm {rels rels' : List TableRelationships} (h : rels.Perm rels')
    (hrels : (rels.map TableRelationships.source).Nodup) : Reordered rels rels' := by
  induction h with
  | nil => exact .nil
  | cons t _ ih => exact .cons t (ih (List.nodup_cons.1 hrels).2)
  | swap t u rels =>
    refine .swap (fun heq => ?_) rels
    exact (List.nodup_cons.1 hrels).1 (by simp [heq])
  | trans h _ ih ih' => exact .trans (ih hrels) (ih' ((h.map _).nodup_iff.1 hrels))

theorem Added.entryFor {kind : String → Prop} {rels rels' : List TableRelationships}
    (h : Added kind rels rels') {table : String} (htable : ¬ kind table) :
    entryFor rels table = entryFor rels' table := by
  induction h with
  | nil => rfl
  | keep t _ ih => rw [entryFor_cons, entryFor_cons, ih]
  | @add t ht _ _ _ ih =>
    have hother : t.source ≠ table := fun heq => htable (heq ▸ ht)
    rw [entryFor_cons, if_neg hother, ih]

namespace Request

/-- What a request looks up. -/
def lookups (r : Request) : List Lookup := r.query.lookups r.relationships r.table

/-- The request with other relationships. -/
def relatedBy (r : Request) (rels : List TableRelationships) : Request := { r with relationships := rels }

theorem compile_relatedBy {settings : QuerySettings} {r : Request} {rels : List TableRelationships}
    (h : ∀ l ∈ r.lookups, (Compile.Context.mk r.relationships settings).lookup l.table l.name =
      (Compile.Context.mk rels settings).lookup l.table l.name) :
    (r.relatedBy rels).compile settings = r.compile settings := by
  let c : Compile.Context := { relationships := r.relationships, settings }
  have hrun : Compile.arrayQuery c 0 r.table none r.query =
      Compile.arrayQuery (c.relatedBy rels) 0 r.table none r.query :=
    Compile.arrayQuery_relatedBy r.query 0 r.table none h
  simp only [Request.compile]
  rw [show Compile.arrayQuery { relationships := (r.relatedBy rels).relationships, settings } 0
      (r.relatedBy rels).table none (r.relatedBy rels).query = _ from hrun.symm]
  rfl

/-- The entry for each table that is looked at is the same. -/
theorem compile_of_entryFor {settings : QuerySettings} {r : Request}
    {rels : List TableRelationships}
    (h : ∀ l ∈ r.lookups, entryFor r.relationships l.table = entryFor rels l.table) :
    (r.relatedBy rels).compile settings = r.compile settings :=
  compile_relatedBy fun l hl => Compile.Context.lookup_of_entryFor (h l hl) l.name

/-- **Compilation sees relationships only through what the request looks up.** Other relationships that
give the same for each relationship the request looks up, on the table that it has reached there, give
the same plan or the same error. So do the first entries for each table alone, the entries in an order
that keeps that of entries for one table, any order if all are for different tables, and more entries
for tables on which nothing is looked up, such as tables that are not reached. -/
theorem compile_of_lookups (settings : QuerySettings) (r : Request) :
    (∀ rels, (∀ l ∈ r.lookups,
        (Compile.Context.mk r.relationships settings).lookup l.table l.name =
          (Compile.Context.mk rels settings).lookup l.table l.name) →
      (r.relatedBy rels).compile settings = r.compile settings) ∧
    (r.relatedBy (firstEntries [] r.relationships)).compile settings = r.compile settings ∧
    (∀ rels, Reordered r.relationships rels → (r.relatedBy rels).compile settings = r.compile settings) ∧
    (∀ rels, (r.relationships.map TableRelationships.source).Nodup → r.relationships.Perm rels →
      (r.relatedBy rels).compile settings = r.compile settings) ∧
    ∀ rels, Added (· ∉ r.lookups.map Lookup.table) r.relationships rels →
      (r.relatedBy rels).compile settings = r.compile settings := by
  refine ⟨fun rels h => compile_relatedBy h, ?_, fun rels h => ?_, fun rels hnodup h => ?_,
    fun rels h => ?_⟩
  · exact compile_of_entryFor fun l _ =>
      (entryFor_firstEntries r.relationships [] List.not_mem_nil).symm
  · exact compile_of_entryFor fun l _ => h.entryFor l.table
  · exact compile_of_entryFor fun l _ => (Reordered.of_perm h hnodup).entryFor l.table
  · exact compile_of_entryFor fun l hl =>
      h.entryFor fun hnot => hnot (List.mem_map_of_mem hl)

end Request

namespace Music

theorem request_lookups : request.lookups =
    [⟨"Artist", "Albums"⟩, ⟨"Artist", "Albums"⟩, ⟨"Album", "Artist"⟩, ⟨"Artist", "Albums"⟩,
      ⟨"Album", "Artist"⟩] := by decide

/-- What else is listed after the entries of the tables that are reached, and in which order. -/
theorem request_relatedBy :
    let genres : TableRelationships := { source := "Genre", relationships := [] }
    let late := relationships.reverse ++ [{ source := "Artist", relationships := [] }]
    (∀ l ∈ request.lookups, (Compile.Context.mk relationships {}).lookup l.table l.name =
        (Compile.Context.mk late {}).lookup l.table l.name) ∧
      (relationships.map TableRelationships.source).Nodup ∧
      relationships.Perm relationships.reverse ∧
      Added (· ∉ request.lookups.map Lookup.table) relationships (genres :: relationships) ∧
      ∃ plan, request.compile {} = .ok plan ∧ (request.relatedBy late).compile {} = .ok plan ∧
        (request.relatedBy relationships.reverse).compile {} = .ok plan ∧
        (request.relatedBy (genres :: relationships)).compile {} = .ok plan := by
  intro genres late
  have hlate : ∀ l ∈ request.lookups, (Compile.Context.mk relationships {}).lookup l.table l.name =
      (Compile.Context.mk late {}).lookup l.table l.name := by
    intro l hl
    simp only [request_lookups, List.mem_cons, List.not_mem_nil, or_false] at hl
    rcases hl with rfl | rfl | rfl | rfl | rfl <;> rfl
  have hadded : Added (· ∉ request.lookups.map Lookup.table) relationships (genres :: relationships) :=
    .add (by rw [request_lookups]; decide) (.keep _ (.keep _ .nil))
  have hnodup : (relationships.map TableRelationships.source).Nodup := by decide
  have hperm : relationships.Perm relationships.reverse := (List.reverse_perm _).symm
  obtain ⟨hlookups, -, -, hpermuted, hmore⟩ := Request.compile_of_lookups {} request
  obtain ⟨plan, hplan⟩ : ∃ plan, request.compile {} = .ok plan := ⟨_, rfl⟩
  exact ⟨hlate, hnodup, hperm, hadded, plan, hplan, (hlookups late hlate).trans hplan,
    (hpermuted _ hnodup hperm).trans hplan, (hmore _ hadded).trans hplan⟩

end Music

end DataAgent
