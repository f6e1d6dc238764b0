import DataAgent.Proofs.Request.Meaning
import DataAgent.Proofs.Sql.Outcomes

/-!
# Proofs — Request — Documents

Two facts about the documents that requests ask for. A document fails to exist for one reason only: a
sum of integers leaves sixty-four bits (`Request.document_overflowOnly`). And the two readings of the
object of a query's aggregates differ only for a query that asks for aggregates but names none
(`Request.document_ofRows_eq_plain`).
-/

namespace DataAgent

open Sql

/-! ### Failures -/

theorem sum_overflowOnly (cells : List Cell) : OverflowOnly (Sql.Aggregate.sum cells) := by
  intro err h
  unfold Sql.Aggregate.sum at h
  split at h
  · cases h
  · split at h <;> cases h
    rfl

theorem Aggregate.value_overflowOnly (rows : List Tuple) :
    ∀ a : Aggregate, OverflowOnly (a.value rows)
  | .rowCount | .columnCount _ _ => .ok _
  | .single column function => by
    simp only [Aggregate.value]
    split
    case h_2 => exact sum_overflowOnly _
    all_goals exact .ok _

theorem aggregateMembers_overflowOnly (rows : List Tuple) (aggregates : List (String × Aggregate)) :
    OverflowOnly (aggregateMembers rows aggregates) :=
  .mapM (fun a => (a.2.value_overflowOnly rows).bind fun _ => .ok _) aggregates

section Failures

variable {summary : Summary} {rels : List TableRelationships} {db : Database}

mutual

theorem Query.document_overflowOnly : ∀ (q : Query) (table : String) (candidates : List Tuple),
    OverflowOnly (q.document summary rels db table candidates)
  | ⟨fields, aggregates, filter, orderBy, limit, offset⟩, table, candidates => by
    have hobjects : ∀ rows : List Tuple, OverflowOnly
        (rows.mapM fun row => fieldsDocument summary rels db table row fields) :=
      .mapM fun row => fieldsDocument_overflowOnly fields table row
    cases aggregates with
    | none => exact (hobjects _).bind fun _ => .ok _
    | some aggregates =>
      refine (aggregateMembers_overflowOnly _ aggregates).bind fun members => ?_
      cases fields with
      | none => exact .ok _
      | some fields => exact (hobjects _).bind fun _ => .ok _

theorem Query.objectDocument_overflowOnly : ∀ (q : Query) (table : String) (candidates : List Tuple),
    OverflowOnly (q.objectDocument summary rels db table candidates)
  | ⟨fields, _, filter, _, _, _⟩, table, candidates => by
    rw [Query.objectDocument]
    split
    · exact .ok _
    · exact (fieldsDocument_overflowOnly fields table _).bind fun _ => .ok _

theorem fieldsDocument_overflowOnly :
    ∀ (fields : Option (List (String × Field))) (table : String) (row : Tuple),
      OverflowOnly (fieldsDocument summary rels db table row fields)
  | none, _, _ => .ok _
  | some fields, table, row => (fieldMembers_overflowOnly fields table row).bind fun _ => .ok _

theorem fieldMembers_overflowOnly :
    ∀ (fields : List (String × Field)) (table : String) (row : Tuple),
      OverflowOnly (fieldMembers summary rels db table row fields)
  | [], _, _ => .ok _
  | (_, field) :: fields, table, row =>
    (Field.document_overflowOnly field table row).bind fun _ =>
      (fieldMembers_overflowOnly fields table row).bind fun _ => .ok _

theorem Field.document_overflowOnly : ∀ (field : Field) (table : String) (row : Tuple),
    OverflowOnly (field.document summary rels db table row)
  | .column _, _, _ => .ok _
  | .relationship name q, table, row => by
    rw [Field.document]
    split
    · exact .ok _
    · split
      · exact q.objectDocument_overflowOnly _ _
      · exact q.document_overflowOnly _ _

end

theorem Request.document_overflowOnly (r : Request) : OverflowOnly (r.document summary db) :=
  r.query.document_overflowOnly _ _

end Failures

/-! ### Readings of aggregates -/

mutual

/-- Each query that asks for aggregates names one. -/
def Query.summarises : Query → Bool
  | ⟨fields, aggregates, _, _, _, _⟩ => aggregates.all (!·.isEmpty) && fieldsSummarise fields

/-- The queries of a row's fields name the aggregates they ask for. -/
def fieldsSummarise : Option (List (String × Field)) → Bool
  | none        => true
  | some fields => membersSummarise fields

/-- The queries of fields name the aggregates they ask for. -/
def membersSummarise : List (String × Field) → Bool
  | []                   => true
  | (_, field) :: fields => field.summarises && membersSummarise fields

/-- The query of a field names the aggregates it asks for. -/
def Field.summarises : Field → Bool
  | .column _           => true
  | .relationship _ q => q.summarises

end

section Readings

variable {rels : List TableRelationships} {db : Database}

/-- Where there are aggregates, their object is never null. -/
theorem ofRows_eq_plain {rows : List Tuple} {aggregates : List (String × Aggregate)}
    {members : List (String × Json)} (h : aggregateMembers rows aggregates = .ok members)
    (hne : (!aggregates.isEmpty) = true) :
    Summary.ofRows rows members = Summary.plain rows members := by
  have hlength := (forall₂_of_mapM_ok h).length_eq
  cases members with
  | nil =>
    rw [List.length_nil, List.length_eq_zero_iff] at hlength
    simp [hlength] at hne
  | cons => simp [Summary.ofRows, Summary.plain]

mutual

theorem Query.document_ofRows_eq_plain :
    ∀ (q : Query) (table : String) (candidates : List Tuple), q.summarises = true →
      q.document .ofRows rels db table candidates = q.document .plain rels db table candidates
  | ⟨fields, aggregates, filter, orderBy, limit, offset⟩, table, candidates, h => by
    rw [Query.summarises, Bool.and_eq_true] at h
    have hobjects : (fun row => fieldsDocument .ofRows rels db table row fields) =
        fun row => fieldsDocument .plain rels db table row fields :=
      funext fun row => fieldsDocument_ofRows_eq_plain fields table row h.2
    simp only [Query.document, hobjects]
    cases aggregates with
    | none => rfl
    | some aggregates =>
      generalize pageRowsOf rels db table candidates filter (orderBy.getD []) limit offset = rows
      cases hmembers : aggregateMembers rows aggregates with
      | error =>
        simp only [hmembers]
        rfl
      | ok members => simp only [hmembers, bind, Except.bind, ofRows_eq_plain hmembers h.1]

theorem Query.objectDocument_ofRows_eq_plain :
    ∀ (q : Query) (table : String) (candidates : List Tuple), q.summarises = true →
      q.objectDocument .ofRows rels db table candidates =
        q.objectDocument .plain rels db table candidates
  | ⟨fields, _, filter, _, _, _⟩, table, candidates, h => by
    rw [Query.summarises, Bool.and_eq_true] at h
    simp only [Query.objectDocument]
    cases (pageRowsOf rels db table candidates filter [] none none).head? with
    | none => rfl
    | some row => simp only [fieldsDocument_ofRows_eq_plain fields table row h.2]

theorem fieldsDocument_ofRows_eq_plain :
    ∀ (fields : Option (List (String × Field))) (table : String) (row : Tuple),
      fieldsSummarise fields = true →
      fieldsDocument .ofRows rels db table row fields = fieldsDocument .plain rels db table row fields
  | none, _, _, _ => rfl
  | some fields, table, row, h => by
    simp only [fieldsDocument, fieldMembers_ofRows_eq_plain fields table row h]

theorem fieldMembers_ofRows_eq_plain :
    ∀ (fields : List (String × Field)) (table : String) (row : Tuple),
      membersSummarise fields = true →
      fieldMembers .ofRows rels db table row fields = fieldMembers .plain rels db table row fields
  | [], _, _, _ => rfl
  | (_, field) :: fields, table, row, h => by
    rw [membersSummarise, Bool.and_eq_true] at h
    simp only [fieldMembers, Field.document_ofRows_eq_plain field table row h.1,
      fieldMembers_ofRows_eq_plain fields table row h.2]

theorem Field.document_ofRows_eq_plain :
    ∀ (field : Field) (table : String) (row : Tuple), field.summarises = true →
      field.document .ofRows rels db table row = field.document .plain rels db table row
  | .column _, _, _, _ => rfl
  | .relationship name q, table, row, h => by
    simp only [Field.document, q.document_ofRows_eq_plain _ _ h,
      q.objectDocument_ofRows_eq_plain _ _ h]

end

theorem Request.document_ofRows_eq_plain {r : Request} (h : r.query.summarises = true) :
    r.document .ofRows db = r.document .plain db :=
  r.query.document_ofRows_eq_plain _ _ h

end Readings

end DataAgent
