import DataAgent.Proofs.Json.Costs
import DataAgent.Proofs.Request.Queries
import DataAgent.Request.Decode

/-!
# Proofs — Request — Weight

A text that holds a request has at least five symbols for each of its queries and two for each
relationship along a path (`Request.load_le`), however tersely it is written: records may be arrays,
names may be empty and tags may be numbers.
-/

namespace DataAgent

open Decode

/-! ### Filters -/

theorem ColumnPath.costs : Costs ColumnPath.decoder fun c => 2 * c.path.length := by
  refine costs_record "ComparisonColumn"
    (.cons (Slot.costs_withDefault "path" costs_string.list rfl) (.cons Slot.costs_zero .nil)) ?_
  rintro ⟨path, name, ⟨⟩⟩
  simp [Nat.mul_comm]

theorem Operand.costs : Costs Operand.decoder fun o => 2 * o.path.length := by
  refine costs_tagged "ComparisonValue" ?_
  simp only [List.forall_mem_cons, List.not_mem_nil, false_implies, implies_true, and_true]
  refine ⟨Alternative.costs_record _ _ (.cons (Slot.costs_required "column" ColumnPath.costs) .nil) ?_,
    Alternative.costs_record _ _ (.cons Slot.costs_zero .nil) ?_⟩
  · rintro ⟨column, ⟨⟩⟩
    exact Nat.le_succ _
  · rintro ⟨value, ⟨⟩⟩
    exact Nat.le_refl _

theorem Filter.sum_segments (filters : List Filter) :
    (filters.map fun f => 2 * f.segments).sum = 2 * Filter.listSegments filters := by
  induction filters with
  | nil => rfl
  | cons f filters ih => rw [List.map_cons, List.sum_cons, ih, Filter.listSegments, Nat.mul_add]

theorem Filter.costs : ∀ levels : Nat, Costs (Filter.decoder levels) fun f => 2 * f.segments
  | 0 => fun _ _ _ h => by cases h
  | levels + 1 => by
    have hlist := (Filter.costs levels).list
    intro m node filter h
    rw [Filter.decoder] at h
    refine costs_tagged (f := fun f => 2 * f.segments) "Expression" ?_ m node filter h
    simp only [List.forall_mem_cons, List.not_mem_nil, false_implies, implies_true, and_true]
    refine ⟨Alternative.costs_record _ _ (.cons (Slot.costs_required _ hlist) .nil) ?_,
      Alternative.costs_record _ _ (.cons (Slot.costs_required _ hlist) .nil) ?_,
      Alternative.costs_record _ _ (.cons (Slot.costs_required _ (Filter.costs levels)) .nil) ?_,
      Alternative.costs_record _ _
        (.cons Slot.costs_zero (.cons (Slot.costs_required _ ColumnPath.costs) .nil)) ?_,
      Alternative.costs_record _ _
        (.cons Slot.costs_zero (.cons (Slot.costs_required _ ColumnPath.costs)
          (.cons (Slot.costs_required _ Operand.costs) .nil))) ?_,
      Alternative.costs_record _ _
        (.cons Slot.costs_zero (.cons (Slot.costs_required _ ColumnPath.costs)
          (.cons Slot.costs_zero .nil))) ?_⟩
    · rintro ⟨filters, ⟨⟩⟩
      rw [Filter.segments, Filter.sum_segments]
      exact Nat.le_succ _
    · rintro ⟨filters, ⟨⟩⟩
      rw [Filter.segments, Filter.sum_segments]
      exact Nat.le_succ _
    · rintro ⟨filter, ⟨⟩⟩
      rw [Filter.segments]
      exact Nat.le_succ _
    · rintro ⟨operator, column, ⟨⟩⟩
      rw [Filter.segments]
      dsimp only
      omega
    · rintro ⟨operator, column, operand, ⟨⟩⟩
      rw [Filter.segments]
      dsimp only
      omega
    · rintro ⟨operator, column, values, ⟨⟩⟩
      rw [Filter.segments]
      dsimp only
      omega

/-! ### Queries -/

theorem load_entryQueries (fields : List (String × Field)) :
    load (entryQueries fields) = (fields.map fun member => load member.2.queries).sum := by
  induction fields with
  | nil => rfl
  | cons member fields ih => rw [entryQueries, load_append, ih, List.map_cons, List.sum_cons]

/-- The query of a field costs five with its name and the marks before both, one of them its own. -/
theorem Query.costs {field : Decoder Field} (h : Costs field fun f => load f.queries) :
    Costs (Query.decoderOf field) fun q => 1 + 2 * q.segments + load (fieldsQueries q.fields) := by
  refine costs_record "Query"
    (.cons (Slot.costs_optional "fields" h.members) <|
      .cons Slot.costs_zero <|
      .cons (Slot.costs_optional "where" (Filter.costs Request.levels)) <|
      .cons Slot.costs_zero <| .cons Slot.costs_zero <| .cons Slot.costs_zero .nil) ?_
  rintro ⟨fields, aggregates, filter, orderBy, limit, offset, ⟨⟩⟩
  have hfields : load (fieldsQueries fields) =
      fields.elim 0 fun ms => (ms.map fun member => load member.2.queries).sum := by
    cases fields with
    | none => rfl
    | some ms => exact load_entryQueries ms
  rw [hfields]
  unfold Query.segments
  cases fields <;> cases filter <;> simp <;> omega

theorem Field.costs : ∀ levels : Nat, Costs (Field.decoder levels) fun f => load f.queries
  | 0 => fun _ _ _ h => by cases h
  | levels + 1 => by
    intro m node field h
    rw [Field.decoder] at h
    refine costs_tagged (f := fun f => load f.queries) "Field" ?_ m node field h
    simp only [List.forall_mem_cons, List.not_mem_nil, false_implies, implies_true, and_true]
    refine ⟨Alternative.costs_record _ _ (.cons Slot.costs_zero .nil) ?_,
      Alternative.costs_record _ _
        (.cons (Slot.costs_required _ costs_string)
          (.cons (Slot.costs_required _ (Query.costs (Field.costs levels))) .nil)) ?_⟩
    · rintro ⟨name, ⟨⟩⟩
      exact Nat.le_refl _
    · rintro ⟨name, query, ⟨⟩⟩
      rw [Field.queries, load_queries]
      dsimp only
      omega

theorem Request.costs : Costs Request.decoder fun r => load r.query.queries := by
  refine costs_record "QueryRequest"
    (.cons (Slot.costs_required "table" costs_string) <|
      .cons Slot.costs_zero <|
      .cons (Slot.costs_required "query" (Query.costs (Field.costs Request.levels))) .nil) ?_
  rintro ⟨table, relationships, query, ⟨⟩⟩
  rw [load_queries]
  dsimp only
  omega

/-- **A text is no shorter than the request it holds**, at five symbols a query and two for each
relationship along a path. -/
theorem Request.load_le {text : Text} {r : Request}
    (h : decodeLeading Request.decoder text = .ok r) : load r.query.queries ≤ text.length :=
  (Request.costs .direct _ r h).trans (Node.weight_read_le text)

end DataAgent
