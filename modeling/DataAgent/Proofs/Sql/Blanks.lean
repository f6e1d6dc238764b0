import DataAgent.Proofs.Sql.Scope
import DataAgent.Sql.Render

/-!
# Proofs — Sql — Blanks

Statements without their values. `Expr.blank` and `Select.blank` put the same text for every constant
that is bound to a parameter, and keep all else. The text of a statement is that of its blank
(`Select.text_blank`): of a value it has only the number of its parameter.
-/

namespace DataAgent.Sql

/-- The constant, emptied if it is bound to a parameter. -/
def Value.blank : Value → Value
  | .int _ | .double _ | .string _ => .string ""
  | .bool b => .bool b
  | .null   => .null

mutual

/-- The expression with its bound constants emptied. -/
def Expr.blank : Expr → Expr
  | .and left right => .and left.blank right.blank
  | .or left right => .or left.blank right.blank
  | .not operand => .not operand.blank
  | .compare op left right => .compare op left.blank right.blank
  | .isIn operand options => .isIn operand.blank (listBlank options)
  | .isNull operand => .isNull operand.blank
  | .call f args => .call f (listBlank args)
  | .existsRow select => .existsRow select.blank
  | .object entries => .object (entryBlank entries)
  | .column c => .column c
  | .value v => .value v.blank
  | .count c => .count c
  | .subselect select => .subselect select.blank
  | .tagged tag operand => .tagged tag operand.blank

/-- The expressions with their bound constants emptied. -/
def listBlank : List Expr → List Expr
  | []      => []
  | e :: es => e.blank :: listBlank es

/-- The named expressions with their bound constants emptied. -/
def entryBlank : List (String × Expr) → List (String × Expr)
  | []             => []
  | (key, e) :: es => (key, e.blank) :: entryBlank es

/-- The order with its bound constants emptied. -/
def orderBlank : List (Expr × Direction) → List (Expr × Direction)
  | []                   => []
  | (e, direction) :: es => (e.blank, direction) :: orderBlank es

/-- The select list with its bound constants emptied. -/
def SelectList.blank : SelectList → SelectList
  | .items items => .items (entryBlank items)
  | .star        => .star
  | .one         => .one

/-- The source with its bound constants emptied. -/
def Source.blank : Source → Source
  | .table table label   => .table table label
  | .select select label => .select select.blank label

/-- The source, if there is one, with its bound constants emptied. -/
def sourceBlank : Option Source → Option Source
  | none        => none
  | some source => some source.blank

/-- The select with its bound constants emptied. -/
def Select.blank : Select → Select
  | ⟨list, source, joins, condition, orderBy, limit⟩ =>
    ⟨list.blank, sourceBlank source, joins, condition.blank, orderBlank orderBy, limit⟩

end

/-! ### Texts -/

/-- The piece, emptied if it is a parameter. -/
def Piece.blank : Piece → Piece
  | .param _ => .param (.string "")
  | .raw text => .raw text
  | .comment text => .comment text
  | .identifier name => .identifier name
  | .literal text => .literal text

/-- The text of pieces has no value in it. -/
theorem Piece.chars_blank : ∀ (bound : Nat) (ps : List Piece),
    Piece.chars bound (ps.map Piece.blank) = Piece.chars bound ps
  | _, [] => rfl
  | bound, .raw _ :: ps | bound, .comment _ :: ps | bound, .identifier _ :: ps
  | bound, .literal _ :: ps => by
    simp only [List.map_cons, Piece.blank, Piece.chars, chars_blank bound ps]
  | bound, .param _ :: ps => by
    simp only [List.map_cons, Piece.blank, Piece.chars, chars_blank (bound + 1) ps]

theorem Piece.blank_commas : ∀ pss : List (List Piece),
    (Piece.commas pss).map Piece.blank = Piece.commas (pss.map (List.map Piece.blank))
  | [] | [_] => rfl
  | ps :: qs :: pss => by
    have hcommas (ps qs : List Piece) (pss : List (List Piece)) :
        Piece.commas (ps :: qs :: pss) = ps ++ .raw ", " :: Piece.commas (qs :: pss) := rfl
    rw [hcommas, List.map_append, List.map_cons, blank_commas (qs :: pss)]
    rfl

theorem blank_clause (leftOut : Bool) (keyword : String) (ps : List Piece) :
    (clause leftOut keyword ps).map Piece.blank = clause leftOut keyword (ps.map Piece.blank) := by
  cases leftOut <;> rfl

theorem TableRef.blank_pieces (t : TableRef) : t.pieces.map Piece.blank = t.pieces := by
  cases t <;> rfl

theorem ColumnRef.blank_pieces (c : ColumnRef) : c.pieces.map Piece.blank = c.pieces := by
  cases c <;> simp [ColumnRef.pieces, TableRef.blank_pieces, Piece.blank]

theorem Count.blank_pieces (c : Count) : c.pieces.map Piece.blank = c.pieces := by
  cases c <;> simp [Count.pieces, ColumnRef.blank_pieces, Piece.blank]

theorem Value.pieces_blank (v : Value) : v.blank.pieces = v.pieces.map Piece.blank := by
  cases v with
  | bool b => cases b <;> rfl
  | _ => rfl

theorem Limit.blank_pieces : ∀ l : Limit, l.pieces.map Piece.blank = l.pieces
  | ⟨none, none⟩ | ⟨none, some _⟩ | ⟨some _, none⟩ | ⟨some _, some _⟩ => rfl

theorem blank_joins (joins : List CrossJoin) :
    (joins.flatMap CrossJoin.pieces).map Piece.blank = joins.flatMap CrossJoin.pieces := by
  induction joins with
  | nil => rfl
  | cons j joins ih =>
    simp [CrossJoin.pieces, TableRef.blank_pieces, TableAlias.pieces, Piece.blank, ih]

/-- The constant true is the blank of itself only. -/
@[simp] theorem Expr.isTrue_blank (e : Expr) : e.blank.isTrue = e.isTrue := by
  cases e with
  | value v => cases v <;> rfl
  | _ => rfl

@[simp] theorem isEmpty_orderBlank (es : List (Expr × Direction)) :
    (orderBlank es).isEmpty = es.isEmpty := by
  cases es <;> rfl

mutual

theorem Expr.pieces_blank : ∀ e : Expr, e.blank.pieces = e.pieces.map Piece.blank
  | .and l r | .or l r | .compare _ l r => by
    simp [Expr.blank, Expr.pieces, Piece.blank, l.pieces_blank, r.pieces_blank]
  | .not e | .isNull e | .tagged _ e => by
    simp [Expr.blank, Expr.pieces, Piece.blank, e.pieces_blank]
  | .isIn e options => by
    simp [Expr.blank, Expr.pieces, Piece.blank, Piece.blank_commas, e.pieces_blank,
      listPieces_blank options]
  | .call _ args => by
    simp [Expr.blank, Expr.pieces, Piece.blank, Piece.blank_commas, listPieces_blank args]
  | .object entries => by
    simp [Expr.blank, Expr.pieces, Piece.blank, Piece.blank_commas, entryPieces_blank entries]
  | .existsRow s | .subselect s => by
    simp [Expr.blank, Expr.pieces, Piece.blank, s.pieces_blank]
  | .value v => by simp [Expr.blank, Expr.pieces, v.pieces_blank]
  | .column c => by simp [Expr.blank, Expr.pieces, c.blank_pieces]
  | .count c => by simp [Expr.blank, Expr.pieces, Piece.blank, c.blank_pieces]

theorem listPieces_blank : ∀ es : List Expr,
    listPieces (listBlank es) = (listPieces es).map (List.map Piece.blank)
  | [] => rfl
  | e :: es => by simp [listBlank, listPieces, e.pieces_blank, listPieces_blank es]

theorem entryPieces_blank : ∀ es : List (String × Expr),
    entryPieces (entryBlank es) = (entryPieces es).map (List.map Piece.blank)
  | [] => rfl
  | (_, e) :: es => by
    simp [entryBlank, entryPieces, Piece.blank, e.pieces_blank, entryPieces_blank es]

theorem itemPieces_blank : ∀ es : List (String × Expr),
    itemPieces (entryBlank es) = (itemPieces es).map (List.map Piece.blank)
  | [] => rfl
  | (_, e) :: es => by
    simp [entryBlank, itemPieces, Piece.blank, e.pieces_blank, itemPieces_blank es]

theorem orderPieces_blank : ∀ es : List (Expr × Direction),
    orderPieces (orderBlank es) = (orderPieces es).map (List.map Piece.blank)
  | [] => rfl
  | (e, _) :: es => by
    simp [orderBlank, orderPieces, Piece.blank, e.pieces_blank, orderPieces_blank es]

theorem SelectList.pieces_blank : ∀ l : SelectList, l.blank.pieces = l.pieces.map Piece.blank
  | .items items => by
    simp [SelectList.blank, SelectList.pieces, Piece.blank_commas, itemPieces_blank items]
  | .star | .one => rfl

theorem Source.pieces_blank : ∀ s : Source, s.blank.pieces = s.pieces.map Piece.blank
  | .table t a => by
    simp [Source.blank, Source.pieces, Piece.blank, t.blank_pieces, TableAlias.pieces]
  | .select s a => by
    simp [Source.blank, Source.pieces, Piece.blank, s.pieces_blank, TableAlias.pieces]

theorem optionalSourcePieces_blank : ∀ s : Option Source,
    optionalSourcePieces (sourceBlank s) = (optionalSourcePieces s).map Piece.blank
  | none => rfl
  | some s => s.pieces_blank

/-- The pieces of a blank differ from those of the select in the values only. -/
theorem Select.pieces_blank : ∀ s : Select, s.blank.pieces = s.pieces.map Piece.blank
  | ⟨list, source, joins, condition, orderBy, limit⟩ => by
    simp only [Select.blank, Select.pieces, Expr.isTrue_blank, isEmpty_orderBlank, blank_clause,
      condition.pieces_blank, orderPieces_blank orderBy, Piece.blank_commas, list.pieces_blank,
      optionalSourcePieces_blank source, List.map_append, List.map_cons, blank_joins,
      limit.blank_pieces, Piece.blank]

end

/-- The text of a select is that of its blank. -/
theorem Select.text_blank (s : Select) : s.blank.statement.text = s.statement.text := by
  rw [Select.statement, Select.statement, Statement.ofPieces, Statement.ofPieces, s.pieces_blank,
    Piece.chars_blank]

theorem Select.explain_text_blank (s : Select) :
    s.blank.explainStatement.text = s.explainStatement.text := by
  have hpieces : s.blank.explainPieces = s.explainPieces.map Piece.blank := by
    rw [Select.explainPieces, Select.explainPieces, s.pieces_blank, List.map_cons]
    rfl
  rw [Select.explainStatement, Select.explainStatement, Statement.ofPieces, Statement.ofPieces, hpieces,
    Piece.chars_blank]

/-- A select has as many parameters as its blank. -/
theorem Select.length_params_blank (s : Select) :
    s.blank.statement.params.length = s.statement.params.length := by
  have hlength (ps : List Piece) :
      (Piece.params (ps.map Piece.blank)).length = (Piece.params ps).length := by
    induction ps with
    | nil => rfl
    | cons p ps ih => cases p <;> simp_all [Piece.params, Piece.blank]
  rw [Select.statement, Select.statement, Statement.ofPieces, Statement.ofPieces, s.pieces_blank]
  exact hlength s.pieces

/-! ### Conditions put together -/

theorem Expr.blank_always : Expr.always.blank = Expr.always := rfl

theorem Expr.blank_conj (l r : Expr) : (l.conj r).blank = l.blank.conj r.blank := by
  unfold Expr.conj
  rw [Expr.isTrue_blank, Expr.isTrue_blank]
  split
  · rfl
  · split <;> rfl

theorem Expr.blank_foldl_conj :
    ∀ (es : List Expr) (e : Expr), (es.foldl .conj e).blank = (listBlank es).foldl .conj e.blank
  | [], _ => rfl
  | e' :: es, e => by
    rw [List.foldl_cons, blank_foldl_conj es, Expr.blank_conj]
    rfl

theorem Expr.blank_foldl_or :
    ∀ (es : List Expr) (e : Expr), (es.foldl .or e).blank = (listBlank es).foldl .or e.blank
  | [], _ => rfl
  | e' :: es, e => by
    rw [List.foldl_cons, blank_foldl_or es]
    rfl

end DataAgent.Sql
