import DataAgent.Proofs.Sql.Params
import DataAgent.Proofs.Sql.Parser

/-!
# Proofs — Sql — Tree

What a select should be read as: its tree (`Select.tree`), in which tags are gone, values are
numbered and tables and columns have the names they are written as.

Not every select is read so. Most expressions stand in parentheses of their own, and are one operand
whatever follows. A negation does not, and takes in a comparison after it, so no comparison may
begin with one (`Expr.negates`). Besides, a select has to yield something and join tables only to
others, and no tag may end its comment (`Select.Legible`).
-/

namespace DataAgent.Sql

/-! ### Trees of statements -/

/-- The name a table is written as. -/
def TableRef.label : TableRef → String
  | .table name => name
  | .aliased a  => a.label

/-- The tree of a column. -/
def ColumnRef.tree : ColumnRef → Parsed.Column
  | .stored table name | .derived table name => { table := table.label, name }

/-- The tree of what is counted. -/
def Count.tree : Count → Parsed.Count
  | .rows            => .rows
  | .values column   => .values column.tree
  | .distinct column => .distinct column.tree

/-- The tree of a joined table. -/
def CrossJoin.tree (j : CrossJoin) : Parsed.Table where
  name := j.table.label
  label := j.label.label

/-- The tree of a constant, `bound` parameters having been numbered before. -/
def Value.tree (bound : Nat) : Value → Parsed.Expr
  | .int _ | .double _ | .string _ => .param (bound + 1)
  | .bool b => .bool b
  | .null   => .null

mutual

/-- The tree of an expression, `bound` parameters having been numbered before. -/
def Expr.tree (bound : Nat) : Expr → Parsed.Expr
  | .and l r        => .and (l.tree bound) (r.tree (bound + l.params.length))
  | .or l r         => .or (l.tree bound) (r.tree (bound + l.params.length))
  | .not e          => .not (e.tree bound)
  | .compare op l r => .compare op (l.tree bound) (r.tree (bound + l.params.length))
  | .isIn e options => .isIn (e.tree bound) (listTree (bound + e.params.length) options)
  | .isNull e       => .isNull (e.tree bound)
  | .call f args    => .call f (listTree bound args)
  | .existsRow s    => .existsRow (s.tree bound)
  | .object entries => .object (entryTree bound entries)
  | .column c       => .column c.tree
  | .value v        => v.tree bound
  | .count c        => .count c.tree
  | .subselect s    => .subselect (s.tree bound)
  | .tagged _ e     => e.tree bound

/-- The trees of expressions. -/
def listTree (bound : Nat) : List Expr → List Parsed.Expr
  | []      => []
  | e :: es => e.tree bound :: listTree (bound + e.params.length) es

/-- The trees of named expressions. -/
def entryTree (bound : Nat) : List (String × Expr) → List (String × Parsed.Expr)
  | []              => []
  | (name, e) :: es => (name, e.tree bound) :: entryTree (bound + e.params.length) es

/-- The trees of an order. -/
def orderTree (bound : Nat) : List (Expr × Direction) → List (Parsed.Expr × Direction)
  | []                   => []
  | (e, direction) :: es => (e.tree bound, direction) :: orderTree (bound + e.params.length) es

/-- The tree of a select list. -/
def SelectList.tree (bound : Nat) : SelectList → Parsed.SelectList
  | .items items => .items (entryTree bound items)
  | .star        => .star
  | .one         => .one

/-- The tree of a source. -/
def Source.tree (bound : Nat) : Source → Parsed.Source
  | .table table a => .table { name := table.label, label := a.label }
  | .select s a    => .select (s.tree bound) a.label

/-- The tree of a source that may be absent. -/
def sourceTree (bound : Nat) : Option Source → Option Parsed.Source
  | none        => none
  | some source => some (source.tree bound)

/-- The tree of a select. Its parameters are numbered clause by clause. -/
def Select.tree (bound : Nat) : Select → Parsed.Select
  | ⟨list, source, joins, condition, orderBy, limit⟩ =>
    let listed := bound + list.params.length
    let sourced := listed + (sourceParams source).length
    { list := list.tree bound
      source := sourceTree listed source
      joins := joins.map CrossJoin.tree
      condition := condition.tree sourced
      orderBy := orderTree (sourced + condition.params.length) orderBy
      limit }

end

/-! ### Legible statements -/

/-- The expression is written as a negation. -/
def Expr.negates : Expr → Bool
  | .not _      => true
  | .tagged _ e => e.negates
  | _           => false

mutual

/-- The expression groups in its text as it does in itself, and its tags are comments. -/
def Expr.Legible : Expr → Prop
  | .and l r | .or l r  => l.Legible ∧ r.Legible
  | .not e              => e.Legible
  | .compare _ l r      => l.negates = false ∧ l.Legible ∧ r.Legible
  | .isIn e options     => e.negates = false ∧ e.Legible ∧ ListLegible options
  | .isNull e           => e.negates = false ∧ e.Legible
  | .call _ args        => ListLegible args
  | .object entries     => EntriesLegible entries
  | .existsRow s | .subselect s => s.Legible
  | .tagged tag e       => ¬ EndsComment tag.toList ∧ e.Legible
  | .column _ | .value _ | .count _ => True

/-- Expressions that are legible. -/
def ListLegible : List Expr → Prop
  | []      => True
  | e :: es => e.Legible ∧ ListLegible es

/-- Named expressions that are legible. -/
def EntriesLegible : List (String × Expr) → Prop
  | []           => True
  | (_, e) :: es => e.Legible ∧ EntriesLegible es

/-- Expressions to order by that are legible. -/
def OrderLegible : List (Expr × Direction) → Prop
  | []           => True
  | (e, _) :: es => e.Legible ∧ OrderLegible es

/-- The select list yields something, and is legible. -/
def SelectList.Legible : SelectList → Prop
  | .items items => items ≠ [] ∧ EntriesLegible items
  | .star | .one => True

/-- The source is legible. -/
def Source.Legible : Source → Prop
  | .table _ _  => True
  | .select s _ => s.Legible

/-- A source, if there is one, is legible; nothing is joined to none. -/
def SourceLegible (joins : List CrossJoin) : Option Source → Prop
  | none        => joins = []
  | some source => source.Legible

/-- The clauses of a select are legible. -/
def Select.Legible : Select → Prop
  | ⟨list, source, joins, condition, orderBy, _⟩ =>
    list.Legible ∧ SourceLegible joins source ∧ condition.Legible ∧ OrderLegible orderBy

end

/-! ### Tags of legible statements -/

namespace Lexeme

theorem quiet_append {ls ms : List Lexeme} : Quiet (ls ++ ms) ↔ Quiet ls ∧ Quiet ms := by
  refine ⟨Quiet.of_append, fun h t ht => ?_⟩
  rcases List.mem_append.1 ht with hl | hm
  · exact h.1 t hl
  · exact h.2 t hm

theorem quiet_fixed (ts : List Token) : Quiet (fixed ts) := by
  intro t ht
  simp [fixed] at ht

theorem quiet_commas : ∀ {lss : List (List Lexeme)}, (∀ ls ∈ lss, Quiet ls) → Quiet (commas lss)
  | [], _ => quiet_fixed []
  | [ls], h => h ls (by simp)
  | ls :: ms :: lss, h => by
    have htail : Quiet (commas (ms :: lss)) := quiet_commas fun ks hks => h ks (by simp [hks])
    exact quiet_append.2 ⟨h ls (by simp), quiet_append.2 ⟨quiet_fixed _, htail⟩⟩

end Lexeme

open Lexeme (fixed)

/-- The lexemes of a condition, none if it is left out. -/
abbrev conditionLexemes (e : Expr) : List Lexeme :=
  if e.isTrue then [] else fixed [.keyword "WHERE"] ++ e.lexemes

/-- The lexemes of the order of a select, none if it is left out. -/
abbrev orderByLexemes (orderBy : List (Expr × Direction)) : List Lexeme :=
  if orderBy.isEmpty then []
  else fixed [.keyword "ORDER", .keyword "BY"] ++ Lexeme.commas (orderLexemes orderBy)

theorem TableRef.quiet (table : TableRef) : Lexeme.Quiet table.lexemes := by
  cases table <;> exact Lexeme.quiet_fixed _

theorem ColumnRef.quiet (c : ColumnRef) : Lexeme.Quiet c.lexemes := by
  cases c <;> exact Lexeme.quiet_append.2 ⟨TableRef.quiet _, Lexeme.quiet_fixed _⟩

theorem Value.quiet (v : Value) : Lexeme.Quiet v.lexemes := by
  intro t ht
  rcases v with _ | _ | (_ | _) | _ | _ <;> simp [Value.lexemes, fixed] at ht

theorem Count.quiet : ∀ c : Count, Lexeme.Quiet c.lexemes
  | .rows => Lexeme.quiet_fixed _
  | .values column => column.quiet
  | .distinct column => Lexeme.quiet_append.2 ⟨Lexeme.quiet_fixed _, column.quiet⟩

theorem Limit.quiet : ∀ l : Limit, Lexeme.Quiet l.lexemes
  | ⟨none, none⟩ => Lexeme.quiet_fixed []
  | ⟨some _, none⟩ | ⟨some _, some _⟩ | ⟨none, some _⟩ => Lexeme.quiet_fixed _

theorem quiet_joins (joins : List CrossJoin) : Lexeme.Quiet (joins.flatMap CrossJoin.lexemes) := by
  induction joins with
  | nil => exact Lexeme.quiet_fixed []
  | cons j joins ih =>
    have hj : Lexeme.Quiet j.lexemes := by
      simp only [CrossJoin.lexemes, Lexeme.quiet_append]
      exact ⟨⟨Lexeme.quiet_fixed _, j.table.quiet⟩, Lexeme.quiet_fixed _, Lexeme.quiet_fixed _⟩
    exact Lexeme.quiet_append.2 ⟨hj, ih⟩

attribute [local simp] Lexeme.quiet_append Lexeme.quiet_fixed

mutual

/-- The tags of a legible expression end no comment. -/
theorem Expr.Legible.quiet : ∀ {e : Expr}, e.Legible → Lexeme.Quiet e.lexemes
  | .and l r, h | .or l r, h => by simp [Expr.lexemes, h.1.quiet, h.2.quiet]
  | .compare _ l r, h => by simp [Expr.lexemes, h.2.1.quiet, h.2.2.quiet]
  | .not e, h => by
    have he : Lexeme.Quiet e.lexemes := Expr.Legible.quiet h
    simp [Expr.lexemes, he]
  | .isNull e, h => by simp [Expr.lexemes, h.2.quiet]
  | .isIn e options, h => by
    simp [Expr.lexemes, h.2.1.quiet, Lexeme.quiet_commas (quiet_list h.2.2)]
  | .call f args, h => by simp [Expr.lexemes, Lexeme.quiet_commas (quiet_list h)]
  | .object entries, h => by simp [Expr.lexemes, Lexeme.quiet_commas (quiet_entries h)]
  | .existsRow s, h | .subselect s, h => by
    have hs : Lexeme.Quiet s.lexemes := Select.Legible.quiet h
    simp [Expr.lexemes, hs]
  | .column c, _ => c.quiet
  | .value v, _ => v.quiet
  | .count c, _ => by simp [Expr.lexemes, c.quiet]
  | .tagged tag e, h => by
    intro t ht
    simp only [Expr.lexemes, List.cons_append, List.mem_cons, List.mem_append, Lexeme.tag.injEq,
      List.not_mem_nil, or_false] at ht
    rcases ht with rfl | he | rfl
    · exact h.1
    · exact h.2.quiet t he
    · exact h.1

theorem quiet_list : ∀ {es : List Expr}, ListLegible es → ∀ ls ∈ listLexemes es, Lexeme.Quiet ls
  | [], _, _, hls => by simp [listLexemes] at hls
  | e :: es, h, ls, hls => by
    rcases List.mem_cons.1 hls with rfl | hls
    · exact h.1.quiet
    · exact quiet_list h.2 ls hls

theorem quiet_entries : ∀ {entries : List (String × Expr)}, EntriesLegible entries →
    ∀ ls ∈ entryLexemes entries, Lexeme.Quiet ls
  | [], _, _, hls => by simp [entryLexemes] at hls
  | (key, e) :: entries, h, ls, hls => by
    rcases List.mem_cons.1 hls with rfl | hls
    · simp [h.1.quiet]
    · exact quiet_entries h.2 ls hls

theorem quiet_items : ∀ {items : List (String × Expr)}, EntriesLegible items →
    ∀ ls ∈ itemLexemes items, Lexeme.Quiet ls
  | [], _, _, hls => by simp [itemLexemes] at hls
  | (name, e) :: items, h, ls, hls => by
    rcases List.mem_cons.1 hls with rfl | hls
    · simp [h.1.quiet]
    · exact quiet_items h.2 ls hls

theorem quiet_orders : ∀ {orderBy : List (Expr × Direction)}, OrderLegible orderBy →
    ∀ ls ∈ orderLexemes orderBy, Lexeme.Quiet ls
  | [], _, _, hls => by simp [orderLexemes] at hls
  | (e, direction) :: orderBy, h, ls, hls => by
    rcases List.mem_cons.1 hls with rfl | hls
    · simp [h.1.quiet]
    · exact quiet_orders h.2 ls hls

theorem SelectList.Legible.quiet : ∀ {list : SelectList}, list.Legible → Lexeme.Quiet list.lexemes
  | .items _, h => Lexeme.quiet_commas (quiet_items h.2)
  | .star, _ | .one, _ => Lexeme.quiet_fixed _

theorem Source.Legible.quiet : ∀ {source : Source}, source.Legible → Lexeme.Quiet source.lexemes
  | .table table a, _ => by simp [Source.lexemes, table.quiet, TableAlias.lexemes]
  | .select s a, h => by
    have hs : Lexeme.Quiet s.lexemes := Select.Legible.quiet h
    simp [Source.lexemes, hs, TableAlias.lexemes]

theorem SourceLegible.quiet : ∀ {source : Option Source} {joins : List CrossJoin},
    SourceLegible joins source → Lexeme.Quiet (optionalSourceLexemes source)
  | none, _, _ => Lexeme.quiet_fixed []
  | some source, _, h => @Source.Legible.quiet source h

/-- The tags of a legible select end no comment. -/
theorem Select.Legible.quiet : ∀ {s : Select}, s.Legible → Lexeme.Quiet s.lexemes
  | ⟨list, source, joins, condition, orderBy, limit⟩, ⟨hlist, hsource, hcondition, horder⟩ => by
    have hwhere : Lexeme.Quiet (conditionLexemes condition) := by
      unfold conditionLexemes
      split
      · exact Lexeme.quiet_fixed []
      · simp [hcondition.quiet]
    have hby : Lexeme.Quiet (orderByLexemes orderBy) := by
      unfold orderByLexemes
      split
      · exact Lexeme.quiet_fixed []
      · simp [Lexeme.quiet_commas (quiet_orders horder)]
    simp only [Select.lexemes, Lexeme.quiet_append]
    exact ⟨⟨⟨⟨⟨⟨Lexeme.quiet_fixed _, hlist.quiet⟩, hsource.quiet⟩, quiet_joins joins⟩, hwhere⟩,
      hby⟩, limit.quiet⟩

end

/-! ### Conditions put together -/

theorem Expr.legible_conj {l r : Expr} (hl : l.Legible) (hr : r.Legible) : (l.conj r).Legible := by
  unfold Expr.conj
  split
  · exact hr
  · split
    · exact hl
    · exact ⟨hl, hr⟩

theorem Expr.legible_foldl_conj : ∀ (es : List Expr) {e : Expr}, e.Legible → ListLegible es →
    (es.foldl .conj e).Legible
  | [], _, he, _ => he
  | _ :: es, _, he, hes => Expr.legible_foldl_conj es (Expr.legible_conj he hes.1) hes.2

theorem Expr.legible_foldl_or : ∀ (es : List Expr) {e : Expr}, e.Legible → ListLegible es →
    (es.foldl .or e).Legible
  | [], _, he, _ => he
  | e' :: es, e, he, hes => by
    have hor : (Expr.or e e').Legible := ⟨he, hes.1⟩
    exact Expr.legible_foldl_or es hor hes.2

theorem listLegible_iff {es : List Expr} : ListLegible es ↔ ∀ e ∈ es, e.Legible := by
  induction es with
  | nil => simp [ListLegible]
  | cons e es ih => simp [ListLegible, ih]

end DataAgent.Sql
