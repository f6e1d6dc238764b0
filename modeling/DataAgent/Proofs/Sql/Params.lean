import DataAgent.Proofs.Sql.Scope
import DataAgent.Proofs.Sql.Tokens

/-!
# Proofs — Sql — Params

The values among the constants of a statement that are bound to parameters, in the order of its
clauses: the select list, the source, the condition, the order (`Select.params`). They are the
parameters of its text, in the order in which they stand there (`Select.params_pieces`).
-/

namespace DataAgent.Sql

/-- The parameter of a constant, if it is one. -/
def Value.params : Value → List Param
  | .int n    => [.int n]
  | .double x => [.double x]
  | .string s => [.string s]
  | .bool _ | .null => []

mutual

/-- The parameters of an expression. -/
def Expr.params : Expr → List Param
  | .and left right | .or left right | .compare _ left right => left.params ++ right.params
  | .not operand | .isNull operand | .tagged _ operand => operand.params
  | .isIn operand options => operand.params ++ listParams options
  | .call _ args          => listParams args
  | .object entries       => entryParams entries
  | .existsRow select | .subselect select => select.params
  | .value value          => value.params
  | .column _ | .count _  => []

/-- The parameters of expressions. -/
def listParams : List Expr → List Param
  | []      => []
  | e :: es => e.params ++ listParams es

/-- The parameters of named expressions. -/
def entryParams : List (String × Expr) → List Param
  | []           => []
  | (_, e) :: es => e.params ++ entryParams es

/-- The parameters of an order. -/
def orderParams : List (Expr × Direction) → List Param
  | []           => []
  | (e, _) :: es => e.params ++ orderParams es

/-- The parameters of a select list. -/
def SelectList.params : SelectList → List Param
  | .items items => entryParams items
  | .star | .one => []

/-- The parameters of a source. -/
def Source.params : Source → List Param
  | .table _ _       => []
  | .select select _ => select.params

/-- The parameters of a source that may be absent. -/
def sourceParams : Option Source → List Param
  | none        => []
  | some source => source.params

/-- The parameters of a select, clause by clause. -/
def Select.params : Select → List Param
  | ⟨list, source, _, condition, orderBy, _⟩ =>
    list.params ++ sourceParams source ++ condition.params ++ orderParams orderBy

end

/-! ### Parameters of pieces -/

theorem Piece.params_raw (text : String) (ps : List Piece) :
    Piece.params (.raw text :: ps) = Piece.params ps := rfl

theorem Piece.params_comment (text : String) (ps : List Piece) :
    Piece.params (.comment text :: ps) = Piece.params ps := rfl

theorem Piece.params_identifier (name : String) (ps : List Piece) :
    Piece.params (.identifier name :: ps) = Piece.params ps := rfl

theorem Piece.params_literal (text : String) (ps : List Piece) :
    Piece.params (.literal text :: ps) = Piece.params ps := rfl

theorem Piece.params_nil : Piece.params [] = [] := rfl

/-- Commas bind nothing. -/
theorem Piece.params_commas : ∀ pss : List (List Piece),
    Piece.params (Piece.commas pss) = pss.flatMap Piece.params
  | [] => rfl
  | [ps] => by simp [Piece.commas]
  | ps :: qs :: pss => by
    have hcommas : Piece.commas (ps :: qs :: pss) = ps ++ .raw ", " :: Piece.commas (qs :: pss) := rfl
    rw [hcommas, Piece.params_append, Piece.params_raw, params_commas (qs :: pss)]
    rfl

theorem params_clause {leftOut : Bool} {keyword : String} {ps : List Piece} {values : List Param}
    (h : Piece.params ps = values) (hnone : leftOut = true → values = []) :
    Piece.params (clause leftOut keyword ps) = values := by
  cases leftOut with
  | true => exact (hnone rfl).symm
  | false => exact h

attribute [local simp] Piece.params_raw Piece.params_comment Piece.params_identifier
  Piece.params_literal Piece.params_nil Piece.params_append Piece.params_commas

theorem TableRef.params_pieces (t : TableRef) : Piece.params t.pieces = [] := by
  cases t <;> rfl

theorem ColumnRef.params_pieces (c : ColumnRef) : Piece.params c.pieces = [] := by
  cases c <;> simp [ColumnRef.pieces, TableRef.params_pieces]

theorem Count.params_pieces (c : Count) : Piece.params c.pieces = [] := by
  cases c <;> simp [Count.pieces, ColumnRef.params_pieces]

theorem Value.params_pieces (v : Value) : Piece.params v.pieces = v.params := by
  cases v with
  | bool b => cases b <;> rfl
  | _ => rfl

theorem Limit.params_pieces : ∀ l : Limit, Piece.params l.pieces = []
  | ⟨none, none⟩ | ⟨none, some _⟩ | ⟨some _, none⟩ | ⟨some _, some _⟩ => rfl

theorem params_joins (joins : List CrossJoin) :
    Piece.params (joins.flatMap CrossJoin.pieces) = [] := by
  induction joins with
  | nil => rfl
  | cons j joins ih =>
    simp [CrossJoin.pieces, TableRef.params_pieces, TableAlias.pieces, ih]

mutual

/-- The parameters of the text of an expression are those of the expression. -/
theorem Expr.params_pieces : ∀ e : Expr, Piece.params e.pieces = e.params
  | .and l r | .or l r | .compare _ l r => by
    simp [Expr.pieces, Expr.params, l.params_pieces, r.params_pieces]
  | .not e | .isNull e | .tagged _ e => by
    simp [Expr.pieces, Expr.params, e.params_pieces]
  | .isIn e options => by
    simp [Expr.pieces, Expr.params, e.params_pieces, params_listPieces options]
  | .call _ args => by simp [Expr.pieces, Expr.params, params_listPieces args]
  | .object entries => by simp [Expr.pieces, Expr.params, params_entryPieces entries]
  | .existsRow s | .subselect s => by simp [Expr.pieces, Expr.params, s.params_pieces]
  | .value v => by simp [Expr.pieces, Expr.params, v.params_pieces]
  | .column c => by simp [Expr.pieces, Expr.params, c.params_pieces]
  | .count c => by simp [Expr.pieces, Expr.params, c.params_pieces]

theorem params_listPieces : ∀ es : List Expr,
    (listPieces es).flatMap Piece.params = listParams es
  | [] => rfl
  | e :: es => by simp [listPieces, listParams, e.params_pieces, params_listPieces es]

theorem params_entryPieces : ∀ es : List (String × Expr),
    (entryPieces es).flatMap Piece.params = entryParams es
  | [] => rfl
  | (_, e) :: es => by simp [entryPieces, entryParams, e.params_pieces, params_entryPieces es]

theorem params_itemPieces : ∀ es : List (String × Expr),
    (itemPieces es).flatMap Piece.params = entryParams es
  | [] => rfl
  | (_, e) :: es => by simp [itemPieces, entryParams, e.params_pieces, params_itemPieces es]

theorem params_orderPieces : ∀ es : List (Expr × Direction),
    (orderPieces es).flatMap Piece.params = orderParams es
  | [] => rfl
  | (e, _) :: es => by simp [orderPieces, orderParams, e.params_pieces, params_orderPieces es]

theorem SelectList.params_pieces : ∀ l : SelectList, Piece.params l.pieces = l.params
  | .items items => by simp [SelectList.pieces, SelectList.params, params_itemPieces items]
  | .star | .one => rfl

theorem Source.params_pieces : ∀ s : Source, Piece.params s.pieces = s.params
  | .table t a => by
    simp [Source.pieces, Source.params, t.params_pieces, TableAlias.pieces]
  | .select s a => by
    simp [Source.pieces, Source.params, s.params_pieces, TableAlias.pieces]

theorem params_optionalSourcePieces : ∀ s : Option Source,
    Piece.params (optionalSourcePieces s) = sourceParams s
  | none => rfl
  | some s => s.params_pieces

/-- The parameters of the text of a select are those of the select. -/
theorem Select.params_pieces : ∀ s : Select, Piece.params s.pieces = s.params
  | ⟨list, source, joins, condition, orderBy, limit⟩ => by
    -- a condition that is left out is the constant true, which binds nothing
    have hcondition : Piece.params (conditionPieces condition) = condition.params := by
      refine params_clause condition.params_pieces fun h => ?_
      rw [Expr.isTrue_iff.1 h]
      rfl
    have horder : Piece.params (orderByPieces orderBy) = orderParams orderBy := by
      refine params_clause ((Piece.params_commas _).trans (params_orderPieces orderBy)) fun h => ?_
      rw [List.isEmpty_iff.1 h]
      rfl
    simp only [Select.pieces_eq, Select.params, Piece.params_append, Piece.params_raw, hcondition, horder,
      list.params_pieces, params_optionalSourcePieces source, params_joins, limit.params_pieces,
      List.append_nil]

end

/-- The values that stand among the lexemes of an expression are its parameters. -/
theorem Expr.values_lexemes (e : Expr) : Lexeme.values e.lexemes = e.params :=
  e.reads.params.symm.trans e.params_pieces

/-! ### Conditions put together -/

theorem Expr.params_always : Expr.always.params = [] := rfl

theorem Expr.params_conj (l r : Expr) : (l.conj r).params = l.params ++ r.params := by
  unfold Expr.conj
  split
  · rename_i h
    rw [Expr.isTrue_iff.1 h]
    rfl
  · split
    · rename_i h
      rw [Expr.isTrue_iff.1 h]
      exact (List.append_nil _).symm
    · rfl

theorem Expr.params_foldl_conj :
    ∀ (es : List Expr) (e : Expr), (es.foldl .conj e).params = e.params ++ listParams es
  | [], e => (List.append_nil _).symm
  | e' :: es, e => by
    rw [List.foldl_cons, params_foldl_conj es, params_conj, listParams, List.append_assoc]

theorem Expr.params_foldl_or :
    ∀ (es : List Expr) (e : Expr), (es.foldl .or e).params = e.params ++ listParams es
  | [], e => (List.append_nil _).symm
  | e' :: es, e => by
    rw [List.foldl_cons, params_foldl_or es, Expr.params, listParams, List.append_assoc]

end DataAgent.Sql
