import DataAgent.Proofs.Sql.Scope
import DataAgent.Sql.Render

/-!
# Proofs — Sql — Lengths

How many pieces the text of a statement has. A piece is a word, a mark, a name, a literal, a comment or
a parameter, so their number is the size of a statement without regard to how long its names are. What
is put around an expression adds a fixed number of pieces, and lists add one for each comma.
-/

namespace DataAgent.Sql

/-! ### Lists -/

/-- A comma for each item is more than enough. -/
theorem Piece.length_commas_le {α : Type} (f : α → List Piece) : ∀ items : List α,
    (Piece.commas (items.map f)).length ≤ (items.map fun a => (f a).length + 1).sum
  | [] => Nat.zero_le _
  | [a] => by simp [Piece.commas]
  | a :: b :: items => by
    have hcommas : Piece.commas ((a :: b :: items).map f) =
        f a ++ .raw ", " :: Piece.commas ((b :: items).map f) := rfl
    have hrest := length_commas_le f (b :: items)
    rw [hcommas, List.length_append, List.length_cons, List.map_cons (l := b :: items),
      List.sum_cons]
    omega

theorem listPieces_eq_map (es : List Expr) : listPieces es = es.map Expr.pieces := by
  induction es with
  | nil => rfl
  | cons e es ih => rw [listPieces, ih, List.map_cons]

theorem entryPieces_eq_map (es : List (String × Expr)) :
    entryPieces es = es.map fun e => .literal e.1 :: .raw ", " :: e.2.pieces := by
  induction es with
  | nil => rfl
  | cons e es ih => rw [entryPieces, ih, List.map_cons]

theorem orderPieces_eq_map (es : List (Expr × Direction)) :
    orderPieces es = es.map fun e => e.1.pieces ++ [.raw (directionText e.2)] := by
  induction es with
  | nil => rfl
  | cons e es ih => rw [orderPieces, ih, List.map_cons]

/-! ### Expressions -/

namespace Expr

theorem length_value (v : Value) : (Expr.value v).pieces.length = 1 := by
  rw [Expr.pieces]
  cases v with
  | bool b => cases b <;> rfl
  | _ => rfl

theorem length_isIn_le (e : Expr) (options : List Expr) :
    (Expr.isIn e options).pieces.length ≤
      e.pieces.length + (options.map fun o => o.pieces.length + 1).sum + 5 := by
  have hoptions := Piece.length_commas_le Expr.pieces options
  simp only [Expr.pieces, listPieces_eq_map, List.length_append, List.length_cons, List.length_nil]
  omega

/-- Each entry of an object has its key, and two commas at most. -/
theorem length_object_le (entries : List (String × Expr)) :
    (Expr.object entries).pieces.length ≤
      (entries.map fun e => e.2.pieces.length + 3).sum + 2 := by
  have hentries := Piece.length_commas_le
    (fun e : String × Expr => .literal e.1 :: .raw ", " :: e.2.pieces) entries
  simp only [List.length_cons, Nat.add_assoc, Nat.reduceAdd] at hentries
  simp only [Expr.pieces, entryPieces_eq_map, List.length_append, List.length_cons,
    List.length_nil]
  omega

@[simp] theorem length_asJson (e : Expr) : e.asJson.pieces.length = e.pieces.length + 3 := by
  simp [Expr.asJson, Expr.pieces, listPieces, Piece.commas]

theorem length_conj_le (l r : Expr) :
    (l.conj r).pieces.length ≤ l.pieces.length + r.pieces.length + 3 := by
  unfold Expr.conj
  split
  · omega
  · split
    · omega
    · simp only [Expr.pieces, List.length_append, List.length_cons, List.length_nil]
      omega

theorem length_foldl_conj_le : ∀ (es : List Expr) (e : Expr),
    (es.foldl .conj e).pieces.length ≤
      e.pieces.length + (es.map fun e => e.pieces.length + 3).sum
  | [], _ => Nat.le_refl _
  | e' :: es, e => by
    have hrest := length_foldl_conj_le es (e.conj e')
    have hfirst := length_conj_le e e'
    rw [List.foldl_cons, List.map_cons, List.sum_cons]
    omega

theorem length_foldl_or : ∀ (es : List Expr) (e : Expr),
    (es.foldl .or e).pieces.length =
      e.pieces.length + (es.map fun e => e.pieces.length + 3).sum
  | [], _ => rfl
  | e' :: es, e => by
    rw [List.foldl_cons, length_foldl_or es, List.map_cons, List.sum_cons]
    simp only [Expr.pieces, List.length_append, List.length_cons, List.length_nil]
    omega

end Expr

/-! ### Selects -/

theorem Limit.length_pieces_le : ∀ l : Limit, l.pieces.length ≤ 1
  | ⟨none, none⟩ => Nat.zero_le _
  | ⟨none, some _⟩ | ⟨some _, none⟩ | ⟨some _, some _⟩ => Nat.le_refl _

theorem TableRef.length_pieces (t : TableRef) : t.pieces.length = 1 := by
  cases t <;> rfl

theorem length_joins (joins : List CrossJoin) :
    (joins.flatMap CrossJoin.pieces).length = 4 * joins.length := by
  induction joins with
  | nil => rfl
  | cons j joins ih =>
    simp only [List.flatMap_cons, CrossJoin.pieces, TableAlias.pieces, List.length_append,
      List.length_cons, List.length_nil, ih, j.table.length_pieces]
    omega

/-- A condition has a word before it, unless it is no condition. -/
theorem length_conditionPieces_le (e : Expr) :
    (conditionPieces e).length ≤ e.pieces.length + 1 := by
  unfold conditionPieces clause
  split
  · exact Nat.zero_le _
  · exact Nat.le_refl _

/-- The pieces of a select: those of its parts, and a word for each clause. -/
theorem Select.length_pieces_le (s : Select) : s.pieces.length ≤
    s.list.pieces.length + (optionalSourcePieces s.source).length +
      (s.joins.flatMap CrossJoin.pieces).length + (conditionPieces s.condition).length +
      (s.orderBy.map fun o => o.1.pieces.length + 2).sum + 3 := by
  obtain ⟨list, source, joins, condition, orderBy, limit⟩ := s
  have hlimit := limit.length_pieces_le
  have horder : (orderByPieces orderBy).length ≤
      (orderBy.map fun o => o.1.pieces.length + 2).sum + 1 := by
    unfold orderByPieces clause
    split
    · exact Nat.zero_le _
    · have hcommas := Piece.length_commas_le
        (fun o : Expr × Direction => o.1.pieces ++ [.raw (directionText o.2)]) orderBy
      simp only [List.length_append, List.length_cons, List.length_nil, Nat.zero_add,
        Nat.add_assoc, Nat.reduceAdd] at hcommas
      rw [List.length_cons, orderPieces_eq_map]
      omega
  simp only [Select.pieces_eq, List.length_append, List.length_cons]
  omega

end DataAgent.Sql
