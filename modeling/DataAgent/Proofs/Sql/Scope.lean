import DataAgent.Sql.Check
import Mathlib

/-!
# Proofs — Sql — Scope

The aliases that a statement binds, and where they may be used. `Select.aliases` lists every alias that
a `FROM` or a join anywhere in a select binds, sub-selects included. `Select.Scoped outer` says that
every column in a select is one of a table in scope: bound by the select itself, or, where the select
stands in an expression, by one of the selects around it. A select in a `FROM` sees only what is around
the whole select, not what stands next to it.

An alias is written as a name, an underscore and its index. Two aliases with different indices are
written differently, whatever their names are and even if case is ignored
(`TableAlias.label_ne_of_index_ne`).
-/

namespace DataAgent.Sql

/-! ### Aliases -/

mutual

/-- The aliases bound in an expression. -/
def Expr.aliases : Expr → List TableAlias
  | .and left right | .or left right | .compare _ left right => left.aliases ++ right.aliases
  | .not operand | .isNull operand | .tagged _ operand => operand.aliases
  | .isIn operand options => operand.aliases ++ listAliases options
  | .call _ args          => listAliases args
  | .object entries       => entryAliases entries
  | .existsRow select | .subselect select => select.aliases
  | .column _ | .value _ | .count _ => []

/-- The aliases bound in expressions. -/
def listAliases : List Expr → List TableAlias
  | []      => []
  | e :: es => e.aliases ++ listAliases es

/-- The aliases bound in named expressions. -/
def entryAliases : List (String × Expr) → List TableAlias
  | []           => []
  | (_, e) :: es => e.aliases ++ entryAliases es

/-- The aliases bound in an order. -/
def orderAliases : List (Expr × Direction) → List TableAlias
  | []           => []
  | (e, _) :: es => e.aliases ++ orderAliases es

/-- The aliases bound in a select list. -/
def SelectList.aliases : SelectList → List TableAlias
  | .items items => entryAliases items
  | .star | .one => []

/-- The alias of a source, and those bound in it. -/
def Source.aliases : Source → List TableAlias
  | .table _ label       => [label]
  | .select select label => label :: select.aliases

/-- The aliases of a source that may be absent. -/
def sourceAliases : Option Source → List TableAlias
  | none        => []
  | some source => source.aliases

/-- The aliases bound anywhere in a select. -/
def Select.aliases : Select → List TableAlias
  | ⟨list, source, joins, condition, orderBy, _⟩ =>
    sourceAliases source ++ joins.map CrossJoin.label ++ list.aliases ++ condition.aliases ++
      orderAliases orderBy

end

/-! ### Columns in scope -/

/-- The alias that a source gives to its rows. -/
def Source.label : Source → TableAlias
  | .table _ label | .select _ label => label

/-- The column is one of a table in scope. -/
def ColumnRef.Scoped (scope : List TableAlias) (c : ColumnRef) : Prop :=
  ∃ label ∈ scope, c.parts.1 = .aliased label

/-- What is counted is in scope. -/
def Count.Scoped (scope : List TableAlias) : Count → Prop
  | .rows => True
  | .values column | .distinct column => column.Scoped scope

mutual

/-- The columns in an expression are in scope. -/
def Expr.Scoped (scope : List TableAlias) : Expr → Prop
  | .and left right | .or left right | .compare _ left right => left.Scoped scope ∧ right.Scoped scope
  | .not operand | .isNull operand | .tagged _ operand => operand.Scoped scope
  | .isIn operand options => operand.Scoped scope ∧ ListScoped scope options
  | .call _ args          => ListScoped scope args
  | .object entries       => EntriesScoped scope entries
  | .existsRow select | .subselect select => select.Scoped scope
  | .column column        => column.Scoped scope
  | .value _              => True
  | .count count          => count.Scoped scope

/-- The columns in expressions are in scope. -/
def ListScoped (scope : List TableAlias) : List Expr → Prop
  | []      => True
  | e :: es => e.Scoped scope ∧ ListScoped scope es

/-- The columns in named expressions are in scope. -/
def EntriesScoped (scope : List TableAlias) : List (String × Expr) → Prop
  | []           => True
  | (_, e) :: es => e.Scoped scope ∧ EntriesScoped scope es

/-- The columns in an order are in scope. -/
def OrderScoped (scope : List TableAlias) : List (Expr × Direction) → Prop
  | []           => True
  | (e, _) :: es => e.Scoped scope ∧ OrderScoped scope es

/-- The columns in a select list are in scope. -/
def SelectList.Scoped (scope : List TableAlias) : SelectList → Prop
  | .items items => EntriesScoped scope items
  | .star | .one => True

/-- The columns in a source are in scope; what is bound beside it is not. -/
def Source.Scoped (outer : List TableAlias) : Source → Prop
  | .table _ _       => True
  | .select select _ => select.Scoped outer

/-- The columns in a source that may be absent are in scope. -/
def SourceScoped (outer : List TableAlias) : Option Source → Prop
  | none        => True
  | some source => source.Scoped outer

/-- The columns in a select are in scope: in its source what is around it, elsewhere also what the
select binds itself. -/
def Select.Scoped (outer : List TableAlias) : Select → Prop
  | ⟨list, source, joins, condition, orderBy, _⟩ =>
    let scope := source.toList.map Source.label ++ joins.map CrossJoin.label ++ outer
    SourceScoped outer source ∧ list.Scoped scope ∧ condition.Scoped scope ∧
      OrderScoped scope orderBy

end

/-! ### Conditions put together -/

theorem Expr.isTrue_iff {e : Expr} : e.isTrue = true ↔ e = .always := by
  constructor
  · intro h
    unfold Expr.isTrue at h
    split at h
    · rfl
    · cases h
  · rintro rfl
    rfl

theorem Expr.aliases_conj (l r : Expr) : (l.conj r).aliases = l.aliases ++ r.aliases := by
  unfold Expr.conj
  split
  · rename_i h
    rw [Expr.isTrue_iff.1 h]
    rfl
  · split
    · rename_i h
      rw [Expr.isTrue_iff.1 h]
      exact (List.append_nil _).symm
    · rfl

theorem Expr.aliases_foldl_conj :
    ∀ (es : List Expr) (e : Expr), (es.foldl .conj e).aliases = e.aliases ++ listAliases es
  | [], e => (List.append_nil _).symm
  | e' :: es, e => by
    rw [List.foldl_cons, aliases_foldl_conj es, aliases_conj, listAliases, List.append_assoc]

theorem Expr.aliases_foldl_or :
    ∀ (es : List Expr) (e : Expr), (es.foldl .or e).aliases = e.aliases ++ listAliases es
  | [], e => (List.append_nil _).symm
  | e' :: es, e => by
    rw [List.foldl_cons, aliases_foldl_or es, Expr.aliases, listAliases, List.append_assoc]

theorem Expr.scoped_conj {scope : List TableAlias} {l r : Expr} (hl : l.Scoped scope)
    (hr : r.Scoped scope) : (l.conj r).Scoped scope := by
  unfold Expr.conj
  split
  · exact hr
  · split
    · exact hl
    · exact ⟨hl, hr⟩

theorem Expr.scoped_foldl_conj {scope : List TableAlias} :
    ∀ (es : List Expr) {e : Expr}, e.Scoped scope → ListScoped scope es →
      (es.foldl .conj e).Scoped scope
  | [], _, he, _ => he
  | _ :: es, _, he, hes => Expr.scoped_foldl_conj es (Expr.scoped_conj he hes.1) hes.2

theorem Expr.scoped_foldl_or {scope : List TableAlias} :
    ∀ (es : List Expr) {e : Expr}, e.Scoped scope → ListScoped scope es →
      (es.foldl .or e).Scoped scope
  | [], _, he, _ => he
  | e' :: es, e, he, hes => by
    have hor : (Expr.or e e').Scoped scope := ⟨he, hes.1⟩
    exact Expr.scoped_foldl_or es hor hes.2

/-! ### Written aliases -/

theorem toLower_of_isDigit {c : Char} (h : c.isDigit = true) : c.toLower = c := by
  simp only [Char.isDigit, Bool.and_eq_true, decide_eq_true_eq] at h
  unfold Char.toLower
  split
  · rename_i hu
    have h₁ := h.2
    have h₂ := hu.1
    exact absurd (UInt32.le_trans h₂ h₁) (by decide)
  · rfl

/-- The characters of a written alias, with small letters. -/
theorem TableAlias.lower_label (a : TableAlias) :
    a.label.toList.map Char.toLower =
      a.name.toList.map Char.toLower ++ '_' :: Nat.toDigits 10 a.index := by
  have hd : (Nat.toDigits 10 a.index).map Char.toLower = Nat.toDigits 10 a.index := by
    refine (List.map_congr_left fun c hc => ?_).trans (List.map_id _)
    exact toLower_of_isDigit (Nat.isDigit_of_mem_toDigits (by decide) (by decide) hc)
  have hl : a.label.toList = a.name.toList ++ '_' :: Nat.toDigits 10 a.index := by
    simp [TableAlias.label, Nat.toString_eq_repr, Nat.toList_repr]
  rw [hl, List.map_append, List.map_cons, hd]
  rfl

/-- What follows the last underscore of two equal texts is equal. -/
theorem eq_of_append_underscore {xs ys ds es : List Char} (hd : '_' ∉ ds) (he : '_' ∉ es)
    (h : xs ++ '_' :: ds = ys ++ '_' :: es) : ds = es := by
  have h' : ds.reverse ++ '_' :: xs.reverse = es.reverse ++ '_' :: ys.reverse := by
    simpa using congrArg List.reverse h
  have take {l r : List Char} (hl : '_' ∉ l) :
      (l.reverse ++ '_' :: r).takeWhile (· != '_') = l.reverse := by
    rw [List.takeWhile_append_of_pos]
    · simp
    · intro c hc
      rw [bne_iff_ne]
      rintro rfl
      exact hl (List.mem_reverse.1 hc)
  have hrev : ds.reverse = es.reverse := by
    rw [← take hd, h', take he]
  exact List.reverse_inj.1 hrev

/-- Aliases with different indices are written differently, even if case is ignored. -/
theorem TableAlias.label_ne_of_index_ne {a b : TableAlias} (h : a.index ≠ b.index) :
    sameName a.label b.label = false := by
  have hlower : a.label.toList.map Char.toLower ≠ b.label.toList.map Char.toLower := by
    intro he
    rw [lower_label, lower_label] at he
    have hd := eq_of_append_underscore Nat.underscore_not_in_toDigits
      Nat.underscore_not_in_toDigits he
    refine h ?_
    rw [← Nat.ofDigitChars_ten_toDigits (n := a.index), hd, Nat.ofDigitChars_ten_toDigits]
  have hne : a.label ≠ b.label := fun he => hlower (by rw [he])
  simp [sameName, hne, hlower]

end DataAgent.Sql
