import DataAgent.Proofs.Sql.Scope

/-!
# Proofs — Sql — Renumber

Statements with their aliases renumbered. `Expr.renumber σ` and `Select.renumber σ` replace the index
`i` of every alias by `σ i`, where it is bound and where it is used, and keep all else. Which
conditions are the constant true does not depend on indices, so renumbering commutes with putting
conditions together (`Expr.renumber_conj`).
-/

namespace DataAgent.Sql

/-- The alias with its index replaced. -/
def TableAlias.renumber (σ : Nat → Nat) (a : TableAlias) : TableAlias := { a with index := σ a.index }

/-- The table with the index of its alias replaced. -/
def TableRef.renumber (σ : Nat → Nat) : TableRef → TableRef
  | .table name => .table name
  | .aliased a  => .aliased (a.renumber σ)

/-- The column with the index of its table replaced. -/
def ColumnRef.renumber (σ : Nat → Nat) : ColumnRef → ColumnRef
  | .stored table name  => .stored (table.renumber σ) name
  | .derived table name => .derived (table.renumber σ) name

/-- What is counted, with the index of its table replaced. -/
def Count.renumber (σ : Nat → Nat) : Count → Count
  | .rows            => .rows
  | .values column   => .values (column.renumber σ)
  | .distinct column => .distinct (column.renumber σ)

/-- The joined table with the index of its alias replaced. -/
def CrossJoin.renumber (σ : Nat → Nat) (j : CrossJoin) : CrossJoin where
  table := j.table.renumber σ
  label := j.label.renumber σ

mutual

/-- The expression with the index `i` of every alias replaced by `σ i`. -/
def Expr.renumber (σ : Nat → Nat) : Expr → Expr
  | .and l r        => .and (l.renumber σ) (r.renumber σ)
  | .or l r         => .or (l.renumber σ) (r.renumber σ)
  | .not e          => .not (e.renumber σ)
  | .compare op l r => .compare op (l.renumber σ) (r.renumber σ)
  | .isIn e options => .isIn (e.renumber σ) (listRenumber σ options)
  | .isNull e       => .isNull (e.renumber σ)
  | .call f args    => .call f (listRenumber σ args)
  | .existsRow s    => .existsRow (s.renumber σ)
  | .object entries => .object (entryRenumber σ entries)
  | .column c       => .column (c.renumber σ)
  | .value v        => .value v
  | .count c        => .count (c.renumber σ)
  | .subselect s    => .subselect (s.renumber σ)
  | .tagged tag e   => .tagged tag (e.renumber σ)

/-- The expressions with their indices replaced. -/
def listRenumber (σ : Nat → Nat) : List Expr → List Expr
  | []      => []
  | e :: es => e.renumber σ :: listRenumber σ es

/-- The named expressions with their indices replaced. -/
def entryRenumber (σ : Nat → Nat) : List (String × Expr) → List (String × Expr)
  | []              => []
  | (name, e) :: es => (name, e.renumber σ) :: entryRenumber σ es

/-- The order with its indices replaced. -/
def orderRenumber (σ : Nat → Nat) : List (Expr × Direction) → List (Expr × Direction)
  | []                   => []
  | (e, direction) :: es => (e.renumber σ, direction) :: orderRenumber σ es

/-- The select list with its indices replaced. -/
def SelectList.renumber (σ : Nat → Nat) : SelectList → SelectList
  | .items items => .items (entryRenumber σ items)
  | .star        => .star
  | .one         => .one

/-- The source with its indices replaced. -/
def Source.renumber (σ : Nat → Nat) : Source → Source
  | .table table a => .table (table.renumber σ) (a.renumber σ)
  | .select s a    => .select (s.renumber σ) (a.renumber σ)

/-- The source, if there is one, with its indices replaced. -/
def sourceRenumber (σ : Nat → Nat) : Option Source → Option Source
  | none        => none
  | some source => some (source.renumber σ)

/-- The select with the index `i` of every alias replaced by `σ i`. -/
def Select.renumber (σ : Nat → Nat) : Select → Select
  | ⟨list, source, joins, condition, orderBy, limit⟩ =>
    ⟨list.renumber σ, sourceRenumber σ source, joins.map (CrossJoin.renumber σ), condition.renumber σ,
      orderRenumber σ orderBy, limit⟩

end

/-! ### Conditions put together -/

namespace Expr

variable (σ : Nat → Nat)

@[simp] theorem isTrue_renumber (e : Expr) : (e.renumber σ).isTrue = e.isTrue := by
  cases e <;> rfl

theorem renumber_conj (l r : Expr) : (l.conj r).renumber σ = (l.renumber σ).conj (r.renumber σ) := by
  unfold Expr.conj
  rw [isTrue_renumber, isTrue_renumber]
  split
  · rfl
  · split <;> rfl

theorem renumber_foldl_conj : ∀ (es : List Expr) (e : Expr),
    (es.foldl .conj e).renumber σ = (listRenumber σ es).foldl .conj (e.renumber σ)
  | [], _ => rfl
  | e' :: es, e => by
    rw [List.foldl_cons, renumber_foldl_conj es, renumber_conj]
    rfl

theorem renumber_foldl_or : ∀ (es : List Expr) (e : Expr),
    (es.foldl .or e).renumber σ = (listRenumber σ es).foldl .or (e.renumber σ)
  | [], _ => rfl
  | e' :: es, e => by
    rw [List.foldl_cons, renumber_foldl_or es]
    rfl

end Expr

end DataAgent.Sql
