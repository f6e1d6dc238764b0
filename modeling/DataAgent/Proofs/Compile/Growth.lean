import DataAgent.Proofs.Compile.Aliases
import DataAgent.Proofs.Compile.Lengths
import DataAgent.Proofs.Request.Encoding
import DataAgent.Proofs.Request.Weight

/-!
# Proofs — Compile — Growth

A statement grows with its request and not faster with nesting, although a filter is compiled twice
where both aggregates and rows are asked for. Aliases are counted exactly (`Request.aliasesDrawn_eq`),
and of a request that is refused no more are drawn than of one that is compiled. A text has more
symbols than the request in it draws aliases (`Request.load_le`), so a counter of sixty-four bits does
not come back to zero (`toNat_iterate_succ`).
-/

namespace DataAgent

/-- The alias counter where the compilation of a request ends, in a statement or in an error. -/
def Request.aliasesDrawn (settings : QuerySettings) (r : Request) : Nat :=
  match (Compile.arrayQuery { relationships := r.relationships, settings } 0 r.table none
      r.query).run 0 with
  | .ok _ n | .error _ n => n

theorem Request.aliasesDrawn_of_ok {settings : QuerySettings} {r : Request} {e : Sql.Expr} {n : Nat}
    (h : Compile.arrayQuery { relationships := r.relationships, settings } 0 r.table none
      r.query 0 = .ok e n) : r.aliasesDrawn settings = n := by
  rw [Request.aliasesDrawn, EStateM.run, h]

theorem Request.aliasesDrawn_eq {settings : QuerySettings} {r : Request} {plan : Plan}
    (h : r.compile settings = .ok plan) :
    r.aliasesDrawn settings = (r.placed.map PlacedQuery.aliasCost).sum := by
  obtain ⟨e, n, he, -⟩ := Request.compile_ok h
  rw [Request.aliasesDrawn_of_ok he, (Compile.draws_arrayQuery r.query 0 r.table none).eq_of_ok he,
    Nat.zero_add]
  rfl

theorem Request.aliasesDrawn_le (settings : QuerySettings) (r : Request) :
    r.aliasesDrawn settings ≤ (r.placed.map PlacedQuery.aliasCost).sum := by
  have hdraws := Compile.draws_arrayQuery
    (c := { relationships := r.relationships, settings }) r.query 0 r.table none 0
  rw [Nat.zero_add] at hdraws
  unfold Request.aliasesDrawn EStateM.run
  -- a failure may come before all queries are reached, so here there is a bound only
  split at hdraws
  · next hrun =>
    rw [hrun]
    exact hdraws.1.le
  · next hrun =>
    rw [hrun]
    exact hdraws

/-- As many aliases are bound in a statement as were drawn for it. -/
theorem Request.length_aliases {settings : QuerySettings} {r : Request} {plan : Plan}
    (h : r.compile settings = .ok plan) :
    plan.select.aliases.length = r.aliasesDrawn settings := by
  obtain ⟨e, n, he, hs, -⟩ := Request.compile_ok h
  have haliases : plan.select.aliases = e.aliases := by
    simp [hs, Sql.Select.ofItems, Sql.Select.aliases, Sql.sourceAliases, Sql.SelectList.aliases,
      Sql.entryAliases, Sql.orderAliases, Sql.Expr.aliases, Sql.Expr.always]
  -- their indices are those below the counter, each once
  have hperm := (Compile.arrayQuery_fills r.query he).perm.length_eq
  rw [List.length_map, List.length_range'] at hperm
  rw [haliases, hperm, Request.aliasesDrawn_of_ok he]
  rfl

/-- A counter of sixty-four bits, stepped from zero. -/
theorem toNat_iterate_succ (k : Nat) : ((· + 1)^[k] (0 : UInt64)).toNat = k % 2 ^ 64 := by
  induction k with
  | zero => rfl
  | succ k ih =>
    rw [Function.iterate_succ_apply', UInt64.toNat_add, ih]
    exact Nat.mod_add_mod k (2 ^ 64) 1

/-- **Alias use is linear in the request.** A request that compiles has every query compiled, and the
counter ends at the sum of what each takes, which is how many aliases its statement binds; the
statement has so many pieces for each part of the request, and so many for each query and each
relationship along a path. Compiled or not, at most five aliases are drawn for each query and two for
each relationship along a path. Where that fits in sixty-four bits the counter is exact at every step,
and it is no more than the symbols of a text that holds the request. -/
theorem Request.aliasesDrawn_linear (settings : QuerySettings) (r : Request) :
    (∀ plan, r.compile settings = .ok plan →
      r.placed.map PlacedQuery.query = r.query.queries ∧
      r.aliasesDrawn settings = (r.placed.map PlacedQuery.aliasCost).sum ∧
      plan.select.aliases.length = r.aliasesDrawn settings ∧
      plan.select.pieces.length ≤ 120 * r.parts +
        2 * ((12 * r.widestMapping + 8) * (r.query.queries.length + r.segments))) ∧
    r.aliasesDrawn settings ≤ 5 * r.query.queries.length + 2 * r.segments ∧
    (5 * r.query.queries.length + 2 * r.segments < 2 ^ 64 →
      ∀ k ≤ r.aliasesDrawn settings, ((· + 1)^[k] (0 : UInt64)).toNat = k) ∧
    ∀ text, decodeLeading Request.decoder text = .ok r →
      5 * r.query.queries.length + 2 * r.segments ≤ text.length := by
  have hbound : r.aliasesDrawn settings ≤ 5 * r.query.queries.length + 2 * r.segments :=
    calc r.aliasesDrawn settings ≤ (r.placed.map PlacedQuery.aliasCost).sum :=
          r.aliasesDrawn_le settings
      _ ≤ load r.query.queries := r.aliasCost_le
      _ = 5 * r.query.queries.length + 2 * r.segments := r.load_eq
  refine ⟨fun plan h => ?_, hbound, fun hfits k hk => ?_, fun text htext => ?_⟩
  · obtain ⟨e, n, he, -⟩ := Request.compile_ok h
    exact ⟨Compile.arrayQuery_placed r.query he, Request.aliasesDrawn_eq h, Request.length_aliases h,
      Request.length_select_le h⟩
  · rw [toNat_iterate_succ]
    exact Nat.mod_eq_of_lt (hk.trans_lt (hbound.trans_lt hfits))
  · exact r.load_eq ▸ Request.load_le htext

namespace Music

theorem request_regular : request.Regular where
  relationships := relationships_regular
  query := by
    simp [request, titleBeforeName, Query.Regular, fieldsRegular, membersRegular, Field.Regular,
      Filter.scalars, Operand.scalars]

theorem decode_request :
    decodeLeading Request.decoder (.ofString request.json.print) = .ok request := by
  have hdepth : request.json.depth ≤ 127 := by decide
  exact (Request.encodes request_regular (hdepth.trans (by decide))).decodeLeading_print hdepth

/-- Artists whose filter goes along three relationships, albums as aggregates and rows in order, and
the artist of each take eleven aliases. Where no relationship may be followed four are drawn before the
request is refused. -/
theorem request_aliasesDrawn :
    (∃ plan, request.compile {} = .ok plan ∧
      request.placed.map PlacedQuery.query = request.query.queries ∧
      request.placed.map PlacedQuery.aliasCost = [5, 5, 1] ∧
      request.aliasesDrawn {} = 11 ∧ plan.select.aliases.length = 11 ∧
      plan.select.pieces.length ≤ 1800) ∧
    (request.compile { maxRelationshipDepth := 0 } = .error (.tooDeep 0) ∧
      request.aliasesDrawn { maxRelationshipDepth := 0 } = 4 ∧
      request.aliasesDrawn { maxRelationshipDepth := 0 } ≤ 21) ∧
    (∀ k ≤ 11, ((· + 1)^[k] (0 : UInt64)).toNat = k) ∧
    decodeLeading Request.decoder (.ofString request.json.print) = .ok request ∧
    21 ≤ (Text.ofString request.json.print).length := by
  have hcompile : request.compile {} = .ok _ := rfl
  have hcosts : request.placed.map PlacedQuery.aliasCost = [5, 5, 1] := by decide
  have hload : 5 * request.query.queries.length + 2 * request.segments = 21 := by decide
  obtain ⟨hplan, -, hword, htext⟩ := request.aliasesDrawn_linear {}
  obtain ⟨hplaced, hdrawn, haliases, hpieces⟩ := hplan _ hcompile
  obtain ⟨-, hrefused, -⟩ := request.aliasesDrawn_linear { maxRelationshipDepth := 0 }
  rw [hcosts] at hdrawn
  rw [hload] at hword hrefused htext
  rw [hdrawn] at haliases hword
  exact ⟨⟨_, hcompile, hplaced, hcosts, hdrawn, haliases, hpieces.trans (by decide)⟩,
    ⟨rfl, rfl, hrefused⟩, hword (by decide), decode_request, htext _ decode_request⟩

end Music

end DataAgent
