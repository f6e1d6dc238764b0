import DataAgent.Proofs.Sql.ParserRuns
import DataAgent.Proofs.Sql.Tree

/-!
# Proofs — Sql — RoundTrip

The text of a legible select is read back as its tree (`Select.parse_statement`).

An expression is read back as one operand (`Expr.ReadsBack`), whatever the tokens after it are: what
binds operands stands in parentheses, and within them the next operator decides how far the first
operand goes (`Expr.ReadsBack.group`). The clauses of a select are told apart by the keyword that
each begins with.
-/

namespace DataAgent.Sql

open Lexeme (tokens values size fixed)
open DataAgent.Sql.Parser

variable {l r e : Expr} {tree : Parsed.Expr} {t : Token} {ts rest : List Token}
  {least fuel bound bound' : Nat}

attribute [local simp] Lexeme.tokens_append Lexeme.tokens_fixed Lexeme.tokens_tag
  Lexeme.values_append Lexeme.values_fixed Expr.values_lexemes Lexeme.size_append Lexeme.size_fixed
  Lexeme.size_tag

/-! ### Expressions -/

/-- An expression begins as operands do. -/
theorem Expr.begins_tokens : ∀ (e : Expr) (bound : Nat), Begins (tokens bound e.lexemes)
  | .and _ _, _ | .or _ _, _ | .compare _ _ _, _ | .isIn _ _, _ | .isNull _, _ | .subselect _, _ =>
    ⟨.symbol "(", rfl, by decide⟩
  | .not _, _ => ⟨.keyword "NOT", rfl, by decide⟩
  | .existsRow _, _ => ⟨.keyword "EXISTS", rfl, by decide⟩
  | .object _, _ => ⟨.name "JSON_OBJECT", rfl, by decide⟩
  | .count _, _ => ⟨.name "COUNT", rfl, by decide⟩
  | .call f _, _ => ⟨.name f.text, rfl, by simp [outside]⟩
  | .column (.stored table _), _ | .column (.derived table _), _ => by
    refine ⟨.identifier table.label, ?_, by simp [outside]⟩
    cases table <;> rfl
  | .value (.int _), bound | .value (.double _), bound | .value (.string _), bound =>
    ⟨.param (bound + 1), rfl, by simp [outside]⟩
  | .value (.bool true), _ => ⟨.name "TRUE", rfl, by decide⟩
  | .value (.bool false), _ => ⟨.name "FALSE", rfl, by decide⟩
  | .value .null, _ => ⟨.keyword "NULL", rfl, by decide⟩
  | .tagged tag e, bound => by
    have htokens : tokens bound (Expr.tagged tag e).lexemes =
        tokens bound e.lexemes ++ tokens (bound + e.params.length) [.tag tag] := by
      simp [Expr.lexemes]
    rw [htokens]
    exact (e.begins_tokens bound).append

/-- The expression is read back as an operand, with enough fuel and whatever follows. A negation is
followed by nothing that it would take in. -/
structure Expr.ReadsBack (e : Expr) : Prop where
  operand_eq : ∀ {bound fuel : Nat} {rest : List Token}, 2 * size e.lexemes ≤ fuel →
    (e.negates = true → Ends Operator.negation rest) →
      operand fuel (tokens bound e.lexemes ++ rest) = some (e.tree bound, rest)

/-- The select is read back, with enough fuel and at the end or before a closing parenthesis. -/
structure Select.ReadsBack (s : Select) : Prop where
  select_eq : ∀ {bound fuel : Nat} {rest : List Token}, 2 * size s.lexemes + 1 ≤ fuel →
    Heads [.symbol ")"] rest →
      Parser.select fuel (tokens bound s.lexemes ++ rest) = some (s.tree bound, rest)

namespace Expr.ReadsBack

/-- An operand that no operator follows is an expression. -/
theorem expr_eq (h : e.ReadsBack) (hfuel : 2 * size e.lexemes + 2 ≤ fuel) (hends : Ends least rest)
    (hnot : e.negates = true → Ends Operator.negation rest) :
    expr fuel least (tokens bound e.lexemes ++ rest) = some (e.tree bound, rest) := by
  obtain ⟨fuel, rfl⟩ : ∃ k, fuel = k + 1 := ⟨fuel - 1, by omega⟩
  show (operand fuel >>= operators fuel least) _ = _
  rw [bind_eq (h.operand_eq (by omega) hnot)]
  exact hends.operators_eq (by omega)

/-- An expression in parentheses: an operand and operators. -/
theorem group (hl : l.ReadsBack) (hfuel : 2 * size l.lexemes ≤ fuel)
    (hnot : l.negates = true → Ends Operator.negation ts)
    (hops : operators fuel 0 (l.tree bound) ts = some (tree, .symbol ")" :: rest)) :
    operand (fuel + 2) (.symbol "(" :: (tokens bound l.lexemes ++ ts)) = some (tree, rest) := by
  have hexpr : expr (fuel + 1) 0 (tokens bound l.lexemes ++ ts) =
      some (tree, .symbol ")" :: rest) := by
    show (operand fuel >>= operators fuel 0) _ = _
    rw [bind_eq (hl.operand_eq hfuel hnot)]
    exact hops
  -- a parenthesis opens a select or an expression, which the next token tells
  have hselect : (tokens bound l.lexemes ++ ts).head? ≠ some (.keyword "SELECT") :=
    (l.begins_tokens bound).append.head?_ne (by decide)
  show (if (tokens bound l.lexemes ++ ts).head? = some (.keyword "SELECT") then _
    else closed (expr (fuel + 1) 0) : Parser Parsed.Expr) _ = _
  rw [if_neg hselect]
  exact closed_eq hexpr

/-- Two operands and an operator between them, in parentheses. The first is no negation if the
operator binds more strongly than one. -/
theorem between {op : Connective} (hl : l.ReadsBack) (hr : r.ReadsBack)
    (ht : Operator.ofToken t = some (.between op))
    (hnot : l.negates = true → op.strength < Operator.negation)
    (hlexemes : e.lexemes = fixed [.symbol "("] ++ l.lexemes ++ (fixed [t] ++ r.lexemes) ++
      fixed [.symbol ")"])
    (htree : ∀ bound, e.tree bound =
      op.join (l.tree bound) (r.tree (bound + l.params.length))) : e.ReadsBack := by
  refine ⟨fun {bound fuel rest} hfuel _ => ?_⟩
  have htokens : tokens bound e.lexemes ++ rest = .symbol "(" :: (tokens bound l.lexemes ++
      t :: (tokens (bound + l.params.length) r.lexemes ++ .symbol ")" :: rest)) := by
    simp [hlexemes]
  simp only [hlexemes, Lexeme.size_append, Lexeme.size_fixed, List.length_cons,
    List.length_nil] at hfuel
  obtain ⟨fuel, rfl⟩ : ∃ k, fuel = k + 3 := ⟨fuel - 3, by omega⟩
  rw [htokens, htree]
  refine @group l _ _ _ (fuel + 1) bound hl (by omega) (fun hn => ?_) ?_
  · have hweak : ¬ Operator.negation ≤ (Operator.between op).strength := Nat.not_le.2 (hnot hn)
    simp [Ends, operator, ht, hweak]
  · -- the second operand ends at the parenthesis, whatever it is
    have hop : operator 0 (t :: (tokens (bound + l.params.length) r.lexemes ++ .symbol ")" :: rest)) =
        some (some (.between op),
          tokens (bound + l.params.length) r.lexemes ++ .symbol ")" :: rest) := by
      simp [operator, ht]
    have hright : expr fuel (op.strength + 1)
        (tokens (bound + l.params.length) r.lexemes ++ .symbol ")" :: rest) =
        some (r.tree (bound + l.params.length), .symbol ")" :: rest) :=
      hr.expr_eq (by omega) rfl fun _ => rfl
    show (operator 0 >>= _) _ = _
    rw [bind_eq hop]
    show (expr fuel (op.strength + 1) >>= fun right => operators fuel 0 (op.join _ right)) _ = _
    rw [bind_eq hright]
    exact Ends.operators_eq rfl (by omega)

/-- An expression is read before anything but an operator. -/
theorem element (h : e.ReadsBack) (hfuel : 2 * size e.lexemes + 2 ≤ fuel) (hends : Ends 0 rest) :
    expr fuel 0 (tokens bound e.lexemes ++ rest) = some (e.tree bound, rest) :=
  h.expr_eq hfuel hends fun _ => hends.all

theorem not (h : e.ReadsBack) : (Expr.not e).ReadsBack := by
  refine ⟨fun {bound fuel rest} hfuel hnot => ?_⟩
  have htokens : tokens bound (Expr.not e).lexemes ++ rest =
      .keyword "NOT" :: .symbol "(" :: (tokens bound e.lexemes ++ .symbol ")" :: rest) := by
    simp [Expr.lexemes]
  simp only [Expr.lexemes, Lexeme.size_append, Lexeme.size_fixed, List.length_cons,
    List.length_nil] at hfuel
  obtain ⟨fuel, rfl⟩ : ∃ k, fuel = k + 4 := ⟨fuel - 4, by omega⟩
  have hgroup : operand (fuel + 2) (.symbol "(" :: (tokens bound e.lexemes ++ .symbol ")" :: rest)) =
      some (e.tree bound, rest) :=
    h.group (by omega) (fun _ => rfl) (Ends.operators_eq rfl (by omega))
  have hexpr : expr (fuel + 3) Operator.negation
      (.symbol "(" :: (tokens bound e.lexemes ++ .symbol ")" :: rest)) =
      some (e.tree bound, rest) := by
    show (operand (fuel + 2) >>= operators (fuel + 2) _) _ = _
    rw [bind_eq hgroup]
    exact (hnot rfl).operators_eq (by omega)
  -- what is negated is in parentheses, and the negation goes on after them only over comparisons
  rw [htokens, operand_not, bind_eq hexpr]
  rfl

theorem isNull (h : e.ReadsBack) (hnot : e.negates = false) : (Expr.isNull e).ReadsBack := by
  refine ⟨fun {bound fuel rest} hfuel _ => ?_⟩
  have htokens : tokens bound (Expr.isNull e).lexemes ++ rest = .symbol "(" ::
      (tokens bound e.lexemes ++ .keyword "IS" :: .keyword "NULL" :: .symbol ")" :: rest) := by
    simp [Expr.lexemes]
  simp only [Expr.lexemes, Lexeme.size_append, Lexeme.size_fixed, List.length_cons,
    List.length_nil] at hfuel
  obtain ⟨fuel, rfl⟩ : ∃ k, fuel = k + 4 := ⟨fuel - 4, by omega⟩
  rw [htokens]
  refine @group e _ _ _ (fuel + 2) bound h (by omega) (by simp [hnot]) ?_
  show operators (fuel + 1) 0 (.isNull (e.tree bound)) (.symbol ")" :: rest) = _
  exact Ends.operators_eq rfl (by omega)

/-- Membership in a list whose elements are read back. -/
theorem isIn {options : List Expr} (h : e.ReadsBack) (hnot : e.negates = false)
    (hlist : ∀ {bound fuel : Nat}, (∀ ls ∈ listLexemes options, 2 * size ls + 2 ≤ fuel) →
      Listed (expr fuel 0) bound (listLexemes options) (listTree bound options)) :
    (Expr.isIn e options).ReadsBack := by
  refine ⟨fun {bound fuel rest} hfuel _ => ?_⟩
  have htokens : tokens bound (Expr.isIn e options).lexemes ++ rest = .symbol "(" ::
      (tokens bound e.lexemes ++ .keyword "IN" :: .symbol "(" ::
        (tokens (bound + e.params.length) (Lexeme.commas (listLexemes options)) ++
          .symbol ")" :: .symbol ")" :: rest)) := by
    simp [Expr.lexemes]
  simp only [Expr.lexemes, Lexeme.size_append, Lexeme.size_fixed, List.length_cons,
    List.length_nil] at hfuel
  obtain ⟨fuel, rfl⟩ : ∃ k, fuel = k + 4 := ⟨fuel - 4, by omega⟩
  obtain ⟨hlength, helements⟩ := @Lexeme.fits_of_commas (fuel + 1) (listLexemes options) (by omega)
  rw [htokens]
  refine @group e _ _ _ (fuel + 2) bound h (by omega) (by simp [hnot]) ?_
  show (arguments (expr (fuel + 1) 0) (fuel + 1) >>=
    fun options => operators (fuel + 1) 0 (.isIn _ options)) _ = _
  rw [bind_eq ((hlist helements).arguments_eq hlength)]
  exact Ends.operators_eq rfl (by omega)

theorem call (f : Function) {args : List Expr}
    (hlist : ∀ {bound fuel : Nat}, (∀ ls ∈ listLexemes args, 2 * size ls + 2 ≤ fuel) →
      Listed (expr fuel 0) bound (listLexemes args) (listTree bound args)) :
    (Expr.call f args).ReadsBack := by
  refine ⟨fun {bound fuel rest} hfuel _ => ?_⟩
  have htokens : tokens bound (Expr.call f args).lexemes ++ rest = .name f.text :: .symbol "(" ::
      (tokens bound (Lexeme.commas (listLexemes args)) ++ .symbol ")" :: rest) := by
    simp [Expr.lexemes]
  simp only [Expr.lexemes, Lexeme.size_append, Lexeme.size_fixed, List.length_cons,
    List.length_nil] at hfuel
  obtain ⟨fuel, rfl⟩ : ∃ k, fuel = k + 1 := ⟨fuel - 1, by omega⟩
  obtain ⟨hlength, helements⟩ := @Lexeme.fits_of_commas fuel (listLexemes args) (by omega)
  rw [htokens, operand_call, bind_eq ((hlist helements).arguments_eq hlength)]
  rfl

theorem object {entries : List (String × Expr)}
    (hlist : ∀ {bound fuel : Nat}, (∀ ls ∈ entryLexemes entries, 2 * size ls + 2 ≤ fuel) →
      Listed (entry (expr fuel 0)) bound (entryLexemes entries) (entryTree bound entries)) :
    (Expr.object entries).ReadsBack := by
  refine ⟨fun {bound fuel rest} hfuel _ => ?_⟩
  have htokens : tokens bound (Expr.object entries).lexemes ++ rest =
      .name "JSON_OBJECT" :: .symbol "(" ::
        (tokens bound (Lexeme.commas (entryLexemes entries)) ++ .symbol ")" :: rest) := by
    simp [Expr.lexemes]
  simp only [Expr.lexemes, Lexeme.size_append, Lexeme.size_fixed, List.length_cons,
    List.length_nil] at hfuel
  obtain ⟨fuel, rfl⟩ : ∃ k, fuel = k + 1 := ⟨fuel - 1, by omega⟩
  obtain ⟨hlength, helements⟩ := @Lexeme.fits_of_commas fuel (entryLexemes entries) (by omega)
  rw [htokens, operand_object, bind_eq ((hlist helements).arguments_eq hlength)]
  rfl

theorem existsRow {s : Select} (h : s.ReadsBack) : (Expr.existsRow s).ReadsBack := by
  refine ⟨fun {bound fuel rest} hfuel _ => ?_⟩
  have htokens : tokens bound (Expr.existsRow s).lexemes ++ rest =
      .keyword "EXISTS" :: .symbol "(" :: (tokens bound s.lexemes ++ .symbol ")" :: rest) := by
    simp [Expr.lexemes]
  simp only [Expr.lexemes, Lexeme.size_append, Lexeme.size_fixed, List.length_cons,
    List.length_nil] at hfuel
  obtain ⟨fuel, rfl⟩ : ∃ k, fuel = k + 1 := ⟨fuel - 1, by omega⟩
  rw [htokens, operand_exists, bind_eq (closed_eq (h.select_eq (by omega) (heads_cons (by simp))))]
  rfl

theorem subselect {s : Select} (h : s.ReadsBack) : (Expr.subselect s).ReadsBack := by
  refine ⟨fun {bound fuel rest} hfuel _ => ?_⟩
  have htokens : tokens bound (Expr.subselect s).lexemes ++ rest =
      .symbol "(" :: (tokens bound s.lexemes ++ .symbol ")" :: rest) := by
    simp [Expr.lexemes]
  simp only [Expr.lexemes, Lexeme.size_append, Lexeme.size_fixed, List.length_cons,
    List.length_nil] at hfuel
  obtain ⟨fuel, rfl⟩ : ∃ k, fuel = k + 1 := ⟨fuel - 1, by omega⟩
  have hselect : closed (select fuel) (tokens bound s.lexemes ++ .symbol ")" :: rest) =
      some (s.tree bound, rest) :=
    closed_eq (h.select_eq (by omega) (heads_cons (by simp)))
  obtain ⟨ts, hts⟩ : ∃ ts, tokens bound s.lexemes = .keyword "SELECT" :: ts := by
    cases s
    exact ⟨_, rfl⟩
  rw [hts, List.cons_append] at hselect
  rw [htokens, hts, List.cons_append, operand_subselect, bind_eq hselect]
  rfl

theorem column (c : ColumnRef) : (Expr.column c).ReadsBack := by
  refine ⟨fun {bound fuel rest} hfuel _ => ?_⟩
  have htokens : tokens bound (Expr.column c).lexemes =
      [.identifier c.tree.table, .symbol ".", .identifier c.tree.name] := by
    rcases c with ⟨table, name⟩ | ⟨table, name⟩ <;> cases table <;> rfl
  rw [← Lexeme.length_tokens bound, htokens] at hfuel
  obtain ⟨fuel, rfl⟩ : ∃ k, fuel = k + 1 := ⟨fuel - 1, by simp at hfuel; omega⟩
  rw [htokens]
  rfl

theorem value (v : Value) : (Expr.value v).ReadsBack := by
  refine ⟨fun {bound fuel rest} hfuel _ => ?_⟩
  have hpos : 1 ≤ size v.lexemes := by
    rcases v with _ | _ | (_ | _) | _ | _ <;> exact Nat.le_refl 1
  obtain ⟨fuel, rfl⟩ : ∃ k, fuel = k + 1 := ⟨fuel - 1, by rw [Expr.lexemes] at hfuel; omega⟩
  rcases v with _ | _ | (_ | _) | _ | _ <;> rfl

theorem count (c : Count) : (Expr.count c).ReadsBack := by
  refine ⟨fun {bound fuel rest} hfuel _ => ?_⟩
  have htokens : tokens bound (Expr.count c).lexemes ++ rest = .name "COUNT" :: .symbol "(" ::
      (tokens bound c.lexemes ++ .symbol ")" :: rest) := by
    cases c <;> simp [Expr.lexemes]
  simp only [Expr.lexemes, Lexeme.size_append, Lexeme.size_fixed, List.length_cons,
    List.length_nil] at hfuel
  obtain ⟨fuel, rfl⟩ : ∃ k, fuel = k + 1 := ⟨fuel - 1, by omega⟩
  have hcount : Parser.count (tokens bound c.lexemes ++ .symbol ")" :: rest) =
      some (c.tree, .symbol ")" :: rest) := by
    rcases c with _ | ⟨⟨⟨_⟩ | ⟨_⟩, _⟩ | ⟨⟨_⟩ | ⟨_⟩, _⟩⟩ | ⟨⟨⟨_⟩ | ⟨_⟩, _⟩ | ⟨⟨_⟩ | ⟨_⟩, _⟩⟩ <;> rfl
  rw [htokens, operand_count, bind_eq (closed_eq hcount)]
  rfl

theorem tagged (tag : String) (h : e.ReadsBack) : (Expr.tagged tag e).ReadsBack := by
  refine ⟨fun {bound fuel rest} hfuel hnot => ?_⟩
  have htokens : tokens bound (Expr.tagged tag e).lexemes ++ rest =
      tokens bound e.lexemes ++ rest := by
    simp [Expr.lexemes, Lexeme.tokens]
  have hsize : size (Expr.tagged tag e).lexemes = size e.lexemes := by
    simp [Expr.lexemes, size]
  rw [htokens]
  exact h.operand_eq (hsize ▸ hfuel) hnot

end Expr.ReadsBack

/-! ### Clauses -/

theorem TableRef.tokens_lexemes (table : TableRef) (bound : Nat) :
    tokens bound table.lexemes = [.identifier table.label] := by
  cases table <;> rfl

theorem TableAlias.tokens_lexemes (a : TableAlias) (bound : Nat) :
    tokens bound a.lexemes = [.identifier a.label] := rfl

theorem CrossJoin.tokens_lexemes (j : CrossJoin) (bound : Nat) :
    tokens bound j.lexemes = [.keyword "CROSS", .keyword "JOIN", .identifier j.table.label,
      .keyword "AS", .identifier j.label.label] := by
  simp [CrossJoin.lexemes, TableRef.tokens_lexemes, TableAlias.tokens_lexemes]

/-- What follows the order of a select. -/
abbrev afterOrder : List Token := [.keyword "LIMIT", .symbol ")"]

/-- What follows the condition of a select. -/
abbrev afterCondition : List Token := .keyword "ORDER" :: afterOrder

/-- What follows the tables of a select. -/
abbrev afterTables : List Token := .keyword "WHERE" :: afterCondition

/-- What follows the select list. -/
abbrev afterList : List Token := .keyword "FROM" :: afterTables

theorem Limit.reads_back : ∀ (limit : Limit) {bound : Nat} {rest : List Token},
    Heads [.symbol ")"] rest → Parser.limit (tokens bound limit.lexemes ++ rest) = some (limit, rest)
  | ⟨none, none⟩, bound, rest, h => by
    show Parser.limit rest = _
    unfold Parser.limit
    rw [bind_eq (h.accept_eq (by decide))]
    rfl
  | ⟨some limit, none⟩, bound, rest, h => by
    have hmost : most (.integer limit :: rest) = some (some limit, rest) := rfl
    show Parser.limit (.keyword "LIMIT" :: .integer limit :: rest) = _
    unfold Parser.limit
    rw [bind_eq accept_self, if_pos rfl, bind_eq hmost, bind_eq (h.accept_eq (by decide))]
    rfl
  | ⟨some limit, some offset⟩, bound, rest, _ => rfl
  | ⟨none, some offset⟩, bound, rest, _ => rfl

/-- A condition is read back, also if it is left out. -/
theorem Expr.ReadsBack.condition_eq (h : e.ReadsBack)
    (hfuel : e.isTrue ≠ true → 2 * size e.lexemes + 2 ≤ fuel) (hheads : Heads afterCondition rest) :
    condition (expr fuel 0) (tokens bound (conditionLexemes e) ++ rest) =
      some (e.tree bound, rest) := by
  unfold condition conditionLexemes
  by_cases htrue : e.isTrue = true
  · -- no condition is written, and the constant true is read for it
    rw [if_pos htrue, Expr.isTrue_iff.1 htrue]
    show (accept (.keyword "WHERE") >>= _) rest = _
    rw [bind_eq (hheads.accept_eq (by decide))]
    rfl
  · rw [if_neg htrue]
    have htokens : tokens bound (fixed [.keyword "WHERE"] ++ e.lexemes) ++ rest =
        .keyword "WHERE" :: (tokens bound e.lexemes ++ rest) := by
      simp
    rw [htokens, bind_eq accept_self]
    exact h.element (hfuel htrue) (hheads.ends (by decide))

/-- An order whose elements are read back is read back, also if it is left out. -/
theorem Parser.Listed.order_eq {orderBy : List (Expr × Direction)}
    (h : Listed (ordering (expr fuel 0)) bound (orderLexemes orderBy) (orderTree bound orderBy))
    (hfuel : (orderLexemes orderBy).length ≤ fuel) (hheads : Heads afterOrder rest) :
    order (expr fuel 0) fuel (tokens bound (orderByLexemes orderBy) ++ rest) =
      some (orderTree bound orderBy, rest) := by
  unfold order
  cases orderBy with
  | nil =>
    show (accept (.keyword "ORDER") >>= _) rest = _
    rw [bind_eq (hheads.accept_eq (by decide))]
    rfl
  | cons o orderBy =>
    have htokens : tokens bound (orderByLexemes (o :: orderBy)) ++ rest = .keyword "ORDER" :: .keyword "BY" ::
          (tokens bound (Lexeme.commas (orderLexemes (o :: orderBy))) ++ rest) := by
      simp [orderByLexemes]
    rw [htokens]
    show commas (ordering (expr fuel 0)) fuel _ = _
    refine h.commas_eq ?_ hfuel (hheads.ends (by decide)) fun hhead => ?_
    · simp [orderLexemes]
    · have hmem := hheads _ hhead
      revert hmem
      decide

theorem size_joins (joins : List CrossJoin) :
    size (joins.flatMap CrossJoin.lexemes) = 5 * joins.length := by
  induction joins with
  | nil => rfl
  | cons j joins ih =>
    have hsize : size j.lexemes = 5 := by
      rw [← Lexeme.length_tokens 0, j.tokens_lexemes]
      rfl
    rw [List.flatMap_cons, Lexeme.size_append, ih, hsize, List.length_cons]
    omega

theorem crossJoins_eq : ∀ (joins : List CrossJoin) {fuel bound : Nat}, joins.length < fuel →
    Heads afterTables rest →
      crossJoins fuel (tokens bound (joins.flatMap CrossJoin.lexemes) ++ rest) =
        some (joins.map CrossJoin.tree, rest)
  | [], fuel, bound, hfuel, hheads => by
    obtain ⟨fuel, rfl⟩ : ∃ k, fuel = k + 1 := ⟨fuel - 1, by omega⟩
    show (accept (.keyword "CROSS") >>= _) rest = _
    rw [bind_eq (hheads.accept_eq (by decide))]
    rfl
  | j :: joins, fuel, bound, hfuel, hheads => by
    obtain ⟨fuel, rfl⟩ : ∃ k, fuel = k + 1 := ⟨fuel - 1, by omega⟩
    have htokens : tokens bound ((j :: joins).flatMap CrossJoin.lexemes) ++ rest =
        .keyword "CROSS" :: .keyword "JOIN" :: .identifier j.table.label :: .keyword "AS" ::
          .identifier j.label.label :: (tokens (bound + (values j.lexemes).length)
            (joins.flatMap CrossJoin.lexemes) ++ rest) := by
      rw [List.flatMap_cons, Lexeme.tokens_append, j.tokens_lexemes]
      rfl
    rw [htokens]
    show (crossJoins fuel >>= fun joins => pure (j.tree :: joins)) _ = _
    rw [bind_eq (crossJoins_eq joins (Nat.lt_of_succ_lt_succ hfuel) hheads)]
    rfl

/-- What a select yields is read back. -/
structure SelectList.ReadsBack (list : SelectList) : Prop where
  selectList_eq : ∀ {bound fuel : Nat} {rest : List Token}, 2 * size list.lexemes + 2 ≤ fuel →
    Heads afterList rest →
      selectList (expr fuel 0) fuel (tokens bound list.lexemes ++ rest) = some (list.tree bound, rest)

/-- A source is read back, after its keyword. -/
structure Source.ReadsBack (source : Source) : Prop where
  source_eq : ∀ {bound fuel : Nat} {rest : List Token}, 2 * size source.lexemes ≤ fuel →
    ∃ ts, tokens bound source.lexemes = .keyword "FROM" :: ts ∧
      Parser.source (Parser.select fuel) (ts ++ rest) = some (source.tree bound, rest)

theorem SelectList.readsBack_items {items : List (String × Expr)} (hne : items ≠ [])
    (hlist : ∀ {bound fuel : Nat}, (∀ ls ∈ itemLexemes items, 2 * size ls + 2 ≤ fuel) →
      Listed (item (expr fuel 0)) bound (itemLexemes items) (entryTree bound items)) :
    (SelectList.items items).ReadsBack := by
  refine ⟨fun {bound fuel rest} hfuel hheads => ?_⟩
  obtain ⟨hlength, helements⟩ := @Lexeme.fits_of_commas fuel (itemLexemes items) hfuel
  have hitems : itemLexemes items ≠ [] := by
    obtain ⟨item, items, rfl⟩ := List.exists_cons_of_ne_nil hne
    simp [itemLexemes]
  have hlisted := @hlist bound fuel helements
  -- an item begins neither with a star nor with the number one
  have hbegins : Begins (tokens bound (SelectList.items items).lexemes ++ rest) :=
    (hlisted.begins_commas hitems).append
  unfold selectList
  rw [bind_eq (accept_of_ne (hbegins.head?_ne (by decide)))]
  show (accept (.integer 1) >>= _) _ = _
  rw [bind_eq (accept_of_ne (hbegins.head?_ne (by decide)))]
  show (commas (item (expr fuel 0)) fuel >>= _) _ = _
  have hcomma : rest.head? ≠ some (.symbol ",") := fun hhead => by
    have hmem := hheads _ hhead
    revert hmem
    decide
  rw [SelectList.lexemes, bind_eq (hlisted.commas_eq hitems hlength (hheads.ends (by decide)) hcomma)]
  rfl

theorem Source.readsBack_select {s : Select} (a : TableAlias) (h : s.ReadsBack) :
    (Source.select s a).ReadsBack := by
  refine ⟨fun {bound fuel rest} hfuel => ?_⟩
  have htokens : tokens bound (Source.select s a).lexemes = .keyword "FROM" :: .symbol "(" ::
      (tokens bound s.lexemes ++ [.symbol ")", .keyword "AS", .identifier a.label]) := by
    simp [Source.lexemes, TableAlias.lexemes]
  refine ⟨_, htokens, ?_⟩
  simp only [Source.lexemes, TableAlias.lexemes, Lexeme.size_append, Lexeme.size_fixed,
    List.length_cons, List.length_nil] at hfuel
  have hselect : closed (Parser.select fuel) (tokens bound s.lexemes ++
      .symbol ")" :: .keyword "AS" :: .identifier a.label :: rest) =
      some (s.tree bound, .keyword "AS" :: .identifier a.label :: rest) :=
    closed_eq (h.select_eq (by omega) (heads_cons (by simp)))
  unfold Parser.source
  rw [List.cons_append, bind_eq accept_self, List.append_assoc]
  exact (bind_eq hselect).trans rfl

theorem Source.readsBack_table (table : TableRef) (a : TableAlias) :
    (Source.table table a).ReadsBack := by
  refine ⟨fun {bound fuel rest} _ => ?_⟩
  refine ⟨[.identifier table.label, .keyword "AS", .identifier a.label], ?_, rfl⟩
  simp [Source.lexemes, TableRef.tokens_lexemes, TableAlias.tokens_lexemes]

/-- The tables of a select are read back: a source and what is joined to it, or nothing. -/
theorem sources_eq {source : Option Source} {joins : List CrossJoin}
    (hsource : ∀ s, source = some s → s.ReadsBack) (hnone : source = none → joins = [])
    (hfuel : 2 * size (optionalSourceLexemes source) ≤ fuel) (hjoins : joins.length < fuel)
    (hheads : Heads afterTables rest) :
    sources (Parser.select fuel) fuel (tokens bound (optionalSourceLexemes source) ++
      (tokens bound' (joins.flatMap CrossJoin.lexemes) ++ rest)) =
      some ((sourceTree bound source, joins.map CrossJoin.tree), rest) := by
  unfold sources
  cases source with
  | none =>
    rw [hnone rfl]
    show (accept (.keyword "FROM") >>= _) rest = _
    rw [bind_eq (hheads.accept_eq (by decide))]
    rfl
  | some source =>
    obtain ⟨ts, htokens, hread⟩ := @(hsource source rfl).source_eq bound fuel
      (tokens bound' (joins.flatMap CrossJoin.lexemes) ++ rest) hfuel
    rw [optionalSourceLexemes, htokens, List.cons_append, bind_eq accept_self]
    show (Parser.source (Parser.select fuel) >>= _) _ = _
    rw [bind_eq hread]
    show (crossJoins fuel >>= _) _ = _
    rw [bind_eq (crossJoins_eq joins hjoins hheads)]
    rfl

/-- A clause that may be left out, before others. -/
theorem heads_tokens {allowed : List Token} {ls : List Lexeme}
    (h : ls = [] ∨ ∃ t ms, ls = .token t :: ms ∧ t ∈ allowed) (hrest : Heads allowed rest) :
    Heads allowed (tokens bound ls ++ rest) := by
  rcases h with rfl | ⟨t, ms, rfl, ht⟩
  · exact hrest
  · exact heads_cons ht

/-- A condition that is left out has no values. -/
theorem values_conditionLexemes (e : Expr) : values (conditionLexemes e) = e.params := by
  unfold conditionLexemes
  split
  · rename_i htrue
    rw [Expr.isTrue_iff.1 htrue]
    rfl
  · simp

theorem heads_conditionLexemes (hrest : Heads afterCondition rest) :
    Heads afterTables (tokens bound (conditionLexemes e) ++ rest) := by
  refine heads_tokens ?_ (hrest.mono (List.subset_cons_self _ _))
  unfold conditionLexemes
  split
  · exact .inl rfl
  · exact .inr ⟨_, _, rfl, by simp⟩

theorem heads_orderByLexemes {orderBy : List (Expr × Direction)} (hrest : Heads afterOrder rest) :
    Heads afterCondition (tokens bound (orderByLexemes orderBy) ++ rest) := by
  refine heads_tokens ?_ (hrest.mono (List.subset_cons_self _ _))
  unfold orderByLexemes
  split
  · exact .inl rfl
  · exact .inr ⟨_, _, rfl, by simp⟩

theorem heads_limit (limit : Limit) (hrest : Heads [.symbol ")"] rest) :
    Heads afterOrder (tokens bound limit.lexemes ++ rest) := by
  refine heads_tokens ?_ (hrest.mono (List.subset_cons_self _ _))
  rcases limit with ⟨_ | _, _ | _⟩
  · exact .inl rfl
  all_goals exact .inr ⟨_, _, rfl, by simp⟩

/-- What follows the select list begins with the tables, or what may follow them. -/
theorem heads_sources {source : Option Source} {joins : List CrossJoin}
    (hnone : source = none → joins = []) (hrest : Heads afterTables rest) :
    Heads afterList (tokens bound (optionalSourceLexemes source) ++
      (tokens bound' (joins.flatMap CrossJoin.lexemes) ++ rest)) := by
  cases source with
  | none =>
    rw [hnone rfl]
    exact hrest.mono (List.subset_cons_self _ _)
  | some source => cases source <;> exact heads_cons (by simp)

/-- Fuel for an order is enough for each of its elements, and for their number. -/
theorem fits_of_orderByLexemes {orderBy : List (Expr × Direction)}
    (h : 2 * size (orderByLexemes orderBy) ≤ fuel) :
    (orderLexemes orderBy).length ≤ fuel ∧
      ∀ ls ∈ orderLexemes orderBy, 2 * size ls + 2 ≤ fuel := by
  cases orderBy with
  | nil => simp [orderLexemes]
  | cons o orderBy =>
    have hsize : size (orderByLexemes (o :: orderBy)) =
        2 + size (Lexeme.commas (orderLexemes (o :: orderBy))) := by
      simp [orderByLexemes]
    exact Lexeme.fits_of_commas (by omega)

/-- The tokens of a select, clause by clause. -/
theorem Select.tokens_lexemes (s : Select) (bound : Nat) :
    tokens bound s.lexemes ++ rest =
      let listed := bound + s.list.params.length
      let sourced := listed + (sourceParams s.source).length
      let chosen := sourced + s.condition.params.length
      .keyword "SELECT" :: (tokens bound s.list.lexemes ++
        (tokens listed (optionalSourceLexemes s.source) ++
        (tokens sourced (s.joins.flatMap CrossJoin.lexemes) ++
        (tokens sourced (conditionLexemes s.condition) ++
        (tokens chosen (orderByLexemes s.orderBy) ++
        (tokens (chosen + (values (orderByLexemes s.orderBy)).length) s.limit.lexemes ++
          rest)))))) := by
  obtain ⟨list, source, joins, condition, orderBy, limit⟩ := s
  have hlist : values list.lexemes = list.params := list.reads.params.symm.trans list.params_pieces
  have hsource : values (optionalSourceLexemes source) = sourceParams source :=
    (optionalSourceReads source).1.params.symm.trans (params_optionalSourcePieces source)
  have hjoins : values (joins.flatMap CrossJoin.lexemes) = [] :=
    (reads_joins joins).params.symm.trans (params_joins joins)
  have hcondition := values_conditionLexemes condition
  simp only [conditionLexemes] at hcondition
  simp only [Select.lexemes, Lexeme.tokens_append, Lexeme.tokens_fixed, Lexeme.values_fixed, hlist,
    hsource, hjoins, hcondition, List.length_nil, List.append_assoc, List.cons_append,
    List.nil_append, Nat.add_zero, Nat.add_assoc]

/-- The clauses of a select, each read back before what may follow it. -/
theorem Select.readsBack_clauses {s : Select} (hlist : s.list.ReadsBack)
    (hsource : ∀ source, s.source = some source → source.ReadsBack)
    (hnone : s.source = none → s.joins = []) (hcondition : s.condition.ReadsBack)
    (horder : ∀ {bound fuel : Nat}, (∀ ls ∈ orderLexemes s.orderBy, 2 * size ls + 2 ≤ fuel) →
      Listed (ordering (expr fuel 0)) bound (orderLexemes s.orderBy) (orderTree bound s.orderBy)) :
    s.ReadsBack := by
  refine ⟨fun {bound fuel rest} hfuel hheads => ?_⟩
  have hsize : size s.lexemes = 1 + size s.list.lexemes + size (optionalSourceLexemes s.source) +
      5 * s.joins.length + size (conditionLexemes s.condition) + size (orderByLexemes s.orderBy) +
      size s.limit.lexemes := by
    obtain ⟨list, source, joins, condition, orderBy, limit⟩ := s
    simp only [Select.lexemes, Lexeme.size_append, Lexeme.size_fixed, size_joins, List.length_cons,
      List.length_nil]
  obtain ⟨fuel, rfl⟩ : ∃ k, fuel = k + 1 := ⟨fuel - 1, by omega⟩
  have hconditionFuel : s.condition.isTrue ≠ true → 2 * size s.condition.lexemes + 2 ≤ fuel := by
    intro htrue
    have hwhere : size (conditionLexemes s.condition) = 1 + size s.condition.lexemes := by
      simp [conditionLexemes, htrue]
    omega
  obtain ⟨horderLength, horderFuel⟩ := @fits_of_orderByLexemes fuel s.orderBy (by omega)
  -- what follows each clause, from the last to the first
  have hlimit {bound : Nat} : Heads afterOrder (tokens bound s.limit.lexemes ++ rest) :=
    heads_limit s.limit hheads
  have hafter {bound bound' : Nat} : Heads afterCondition (tokens bound (orderByLexemes s.orderBy) ++
      (tokens bound' s.limit.lexemes ++ rest)) :=
    heads_orderByLexemes hlimit
  have htables {bound bound' bound'' : Nat} : Heads afterTables
      (tokens bound (conditionLexemes s.condition) ++ (tokens bound' (orderByLexemes s.orderBy) ++
        (tokens bound'' s.limit.lexemes ++ rest))) :=
    heads_conditionLexemes hafter
  rw [s.tokens_lexemes, select_clauses,
    bind_eq (hlist.selectList_eq (by omega) (heads_sources hnone htables)),
    bind_eq (sources_eq hsource hnone (by omega) (by omega) htables),
    bind_eq (hcondition.condition_eq hconditionFuel hafter),
    bind_eq ((horder horderFuel).order_eq horderLength hlimit),
    bind_eq (s.limit.reads_back hheads)]
  cases s
  rfl

mutual

/-- A legible expression is read back. -/
theorem Expr.Legible.readsBack : ∀ {e : Expr}, e.Legible → e.ReadsBack
  | .and l r, h => by
    have hop : Operator.ofToken (.keyword "AND") = some (.between .and) := rfl
    exact h.1.readsBack.between h.2.readsBack hop (fun _ => by decide) rfl fun _ => rfl
  | .or l r, h => by
    have hop : Operator.ofToken (.keyword "OR") = some (.between .or) := rfl
    exact h.1.readsBack.between h.2.readsBack hop (fun _ => by decide) rfl fun _ => rfl
  | .compare op l r, h => by
    have hop : Operator.ofToken (.symbol op.symbol) = some (.between (.compare op)) := by
      cases op <;> rfl
    exact h.2.1.readsBack.between h.2.2.readsBack hop (by simp [h.1]) rfl fun _ => rfl
  | .not e, h => .not (Expr.Legible.readsBack h)
  | .isNull e, h => h.2.readsBack.isNull h.1
  | .isIn e options, h => h.2.1.readsBack.isIn h.1 (listed_list h.2.2)
  | .call f args, h => .call f (listed_list h)
  | .object entries, h => .object (listed_entries h)
  | .existsRow s, h => .existsRow (Select.Legible.readsBack h)
  | .subselect s, h => .subselect (Select.Legible.readsBack h)
  | .column c, _ => .column c
  | .value v, _ => .value v
  | .count c, _ => .count c
  | .tagged tag e, h => h.2.readsBack.tagged tag

theorem listed_list : ∀ {es : List Expr}, ListLegible es → ∀ {bound fuel : Nat},
    (∀ ls ∈ listLexemes es, 2 * size ls + 2 ≤ fuel) →
      Listed (expr fuel 0) bound (listLexemes es) (listTree bound es)
  | [], _, _, _, _ => .nil
  | e :: es, h, bound, fuel, hfuel => by
    have he : 2 * size e.lexemes + 2 ≤ fuel := hfuel e.lexemes (by simp [listLexemes])
    refine .cons (e.begins_tokens bound) (fun rest hrest => h.1.readsBack.element he hrest) ?_
    rw [e.values_lexemes]
    exact listed_list h.2 fun ls hls => hfuel ls (by simp [listLexemes, hls])

theorem listed_entries : ∀ {entries : List (String × Expr)}, EntriesLegible entries →
    ∀ {bound fuel : Nat}, (∀ ls ∈ entryLexemes entries, 2 * size ls + 2 ≤ fuel) →
      Listed (entry (expr fuel 0)) bound (entryLexemes entries) (entryTree bound entries)
  | [], _, _, _, _ => .nil
  | (key, e) :: entries, h, bound, fuel, hfuel => by
    have he : 2 * size e.lexemes + 2 ≤ fuel := by
      have hle := hfuel (fixed [.literal key] ++ (fixed [.symbol ","] ++ e.lexemes))
        (by simp [entryLexemes])
      simp at hle
      omega
    refine .cons ⟨.literal key, rfl, by simp [outside]⟩ (fun rest hrest => ?_) ?_
    · have htokens :
          tokens bound (fixed [.literal key] ++ (fixed [.symbol ","] ++ e.lexemes)) ++ rest =
          .literal key :: .symbol "," :: (tokens bound e.lexemes ++ rest) := by
        simp
      rw [htokens]
      show (expr fuel 0 >>= fun value => pure (key, value)) _ = _
      rw [bind_eq (h.1.readsBack.element he hrest)]
      rfl
    · have hvalues : values (fixed [.literal key] ++ (fixed [.symbol ","] ++ e.lexemes)) =
          e.params := by
        simp
      rw [hvalues]
      exact listed_entries h.2 fun ls hls => hfuel ls (by simp [entryLexemes, hls])

theorem listed_items : ∀ {items : List (String × Expr)}, EntriesLegible items →
    ∀ {bound fuel : Nat}, (∀ ls ∈ itemLexemes items, 2 * size ls + 2 ≤ fuel) →
      Listed (item (expr fuel 0)) bound (itemLexemes items) (entryTree bound items)
  | [], _, _, _, _ => .nil
  | (name, e) :: items, h, bound, fuel, hfuel => by
    have he : 2 * size e.lexemes + 2 ≤ fuel := by
      have hle := hfuel (e.lexemes ++ fixed [.keyword "AS", .identifier name]) (by simp [itemLexemes])
      simp at hle
      omega
    have htokens : tokens bound (e.lexemes ++ fixed [.keyword "AS", .identifier name]) =
        tokens bound e.lexemes ++ [.keyword "AS", .identifier name] := by
      simp
    refine .cons ?_ (fun rest hrest => ?_) ?_
    · rw [htokens]
      exact (e.begins_tokens bound).append
    · rw [htokens, List.append_assoc]
      have hends : Ends 0 (.keyword "AS" :: .identifier name :: rest) := rfl
      unfold item
      exact (bind_eq (h.1.readsBack.element he hends)).trans rfl
    · have hvalues : values (e.lexemes ++ fixed [.keyword "AS", .identifier name]) = e.params := by
        simp
      rw [hvalues]
      exact listed_items h.2 fun ls hls => hfuel ls (by simp [itemLexemes, hls])

theorem listed_orders : ∀ {orderBy : List (Expr × Direction)}, OrderLegible orderBy →
    ∀ {bound fuel : Nat}, (∀ ls ∈ orderLexemes orderBy, 2 * size ls + 2 ≤ fuel) →
      Listed (ordering (expr fuel 0)) bound (orderLexemes orderBy) (orderTree bound orderBy)
  | [], _, _, _, _ => .nil
  | (e, direction) :: orderBy, h, bound, fuel, hfuel => by
    have he : 2 * size e.lexemes + 2 ≤ fuel := by
      have hle := hfuel (e.lexemes ++ fixed [.keyword (directionWord direction)])
        (by simp [orderLexemes])
      simp at hle
      omega
    have htokens : tokens bound (e.lexemes ++ fixed [.keyword (directionWord direction)]) =
        tokens bound e.lexemes ++ [.keyword (directionWord direction)] := by
      simp
    refine .cons ?_ (fun rest hrest => ?_) ?_
    · rw [htokens]
      exact (e.begins_tokens bound).append
    · rw [htokens, List.append_assoc]
      have hends : Ends 0 (.keyword (directionWord direction) :: rest) := by cases direction <;> rfl
      unfold ordering
      refine (bind_eq (h.1.readsBack.element he hends)).trans ?_
      cases direction <;> rfl
    · have hvalues : values (e.lexemes ++ fixed [.keyword (directionWord direction)]) = e.params := by
        simp
      rw [hvalues]
      exact listed_orders h.2 fun ls hls => hfuel ls (by simp [orderLexemes, hls])

theorem SelectList.Legible.readsBack : ∀ {list : SelectList}, list.Legible → list.ReadsBack
  | .items items, h => SelectList.readsBack_items h.1 (listed_items h.2)
  | .star, _ | .one, _ => by
    exact ⟨fun _ _ => rfl⟩

theorem Source.Legible.readsBack : ∀ {source : Source}, source.Legible → source.ReadsBack
  | .table table a, _ => Source.readsBack_table table a
  | .select s a, h => Source.readsBack_select a (Select.Legible.readsBack h)

/-- A legible select is read back. -/
theorem Select.Legible.readsBack : ∀ {s : Select}, s.Legible → s.ReadsBack
  | ⟨list, source, joins, condition, orderBy, limit⟩, ⟨hlist, hsource, hcondition, horder⟩ => by
    refine Select.readsBack_clauses hlist.readsBack ?_ ?_ hcondition.readsBack (listed_orders horder)
    · rintro s rfl
      exact Source.Legible.readsBack hsource
    · rintro rfl
      exact hsource

end

/-! ### Texts -/

/-- The text of a legible select is read back as its tree. -/
theorem Select.parse_statement {s : Select} (h : s.Legible) :
    parse s.statement.text.toList = some (s.tree 0) := by
  have hlex : lex s.statement.text.toList = some (tokens 0 s.lexemes) :=
    (s.reads.statement h.quiet).1
  have hselect : Parser.select (2 * (tokens 0 s.lexemes).length + 1) (tokens 0 s.lexemes) =
      some (s.tree 0, []) := by
    have hread := @h.readsBack.select_eq 0 (2 * size s.lexemes + 1) [] (Nat.le_refl _)
      fun _ ht => by cases ht
    rwa [List.append_nil, ← Lexeme.length_tokens 0] at hread
  unfold parse
  rw [hlex]
  show (Parser.select _ _).bind _ = _
  rw [hselect]
  rfl

end DataAgent.Sql
