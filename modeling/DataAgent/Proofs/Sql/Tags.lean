import DataAgent.Proofs.Sql.Tree

/-!
# Proofs — Sql — Tags

Statements without their tags. `Expr.untag` and `Select.untag` erase every tag and keep all else.

A condition is left out of the text of a select if it is the constant true, and a tag around that
constant would keep it in. A select is candid if this never happens (`Select.Candid`): a condition
that is true once tags are erased has none to begin with. The text of a candid select has the tokens
and the parameters of its erasure (`Select.Candid.spoken_lexemes`).
-/

namespace DataAgent.Sql

/-! ### Erasing tags -/

mutual

/-- The expression without its tags. -/
def Expr.untag : Expr → Expr
  | .and l r        => .and l.untag r.untag
  | .or l r         => .or l.untag r.untag
  | .not e          => .not e.untag
  | .compare op l r => .compare op l.untag r.untag
  | .isIn e options => .isIn e.untag (listUntag options)
  | .isNull e       => .isNull e.untag
  | .call f args    => .call f (listUntag args)
  | .existsRow s    => .existsRow s.untag
  | .object entries => .object (entryUntag entries)
  | .column c       => .column c
  | .value v        => .value v
  | .count c        => .count c
  | .subselect s    => .subselect s.untag
  | .tagged _ e     => e.untag

/-- The expressions without their tags. -/
def listUntag : List Expr → List Expr
  | []      => []
  | e :: es => e.untag :: listUntag es

/-- The named expressions without their tags. -/
def entryUntag : List (String × Expr) → List (String × Expr)
  | []              => []
  | (name, e) :: es => (name, e.untag) :: entryUntag es

/-- The order without its tags. -/
def orderUntag : List (Expr × Direction) → List (Expr × Direction)
  | []                   => []
  | (e, direction) :: es => (e.untag, direction) :: orderUntag es

/-- The select list without its tags. -/
def SelectList.untag : SelectList → SelectList
  | .items items => .items (entryUntag items)
  | .star        => .star
  | .one         => .one

/-- The source without its tags. -/
def Source.untag : Source → Source
  | .table table a => .table table a
  | .select s a    => .select s.untag a

/-- The source, if there is one, without its tags. -/
def sourceUntag : Option Source → Option Source
  | none        => none
  | some source => some source.untag

/-- The select without its tags. -/
def Select.untag : Select → Select
  | ⟨list, source, joins, condition, orderBy, limit⟩ =>
    ⟨list.untag, sourceUntag source, joins, condition.untag, orderUntag orderBy, limit⟩

end

/-! ### Candid statements -/

mutual

/-- No select in the expression has a condition that only its tags keep from being left out. -/
def Expr.Candid : Expr → Prop
  | .and l r | .or l r | .compare _ l r => l.Candid ∧ r.Candid
  | .not e | .isNull e | .tagged _ e    => e.Candid
  | .isIn e options                     => e.Candid ∧ ListCandid options
  | .call _ args                        => ListCandid args
  | .object entries                     => EntriesCandid entries
  | .existsRow s | .subselect s         => s.Candid
  | .column _ | .value _ | .count _     => True

/-- Expressions that are candid. -/
def ListCandid : List Expr → Prop
  | []      => True
  | e :: es => e.Candid ∧ ListCandid es

/-- Named expressions that are candid. -/
def EntriesCandid : List (String × Expr) → Prop
  | []           => True
  | (_, e) :: es => e.Candid ∧ EntriesCandid es

/-- Expressions to order by that are candid. -/
def OrderCandid : List (Expr × Direction) → Prop
  | []           => True
  | (e, _) :: es => e.Candid ∧ OrderCandid es

/-- The select list is candid. -/
def SelectList.Candid : SelectList → Prop
  | .items items => EntriesCandid items
  | .star | .one => True

/-- The source is candid. -/
def Source.Candid : Source → Prop
  | .table _ _  => True
  | .select s _ => s.Candid

/-- A source, if there is one, is candid. -/
def SourceCandid : Option Source → Prop
  | none        => True
  | some source => source.Candid

/-- The clauses of a select are candid, and its condition is left out if it is without tags. -/
def Select.Candid : Select → Prop
  | ⟨list, source, _, condition, orderBy, _⟩ =>
    list.Candid ∧ SourceCandid source ∧ condition.untag.isTrue = condition.isTrue ∧
      condition.Candid ∧ OrderCandid orderBy

end

/-! ### Lexemes without tags -/

namespace Lexeme

/-- The lexeme is not a tag. -/
def isSpoken : Lexeme → Bool
  | tag _ => false
  | _     => true

/-- The lexemes that are not tags. -/
def spoken (ls : List Lexeme) : List Lexeme := ls.filter isSpoken

theorem spoken_append (ls ms : List Lexeme) : spoken (ls ++ ms) = spoken ls ++ spoken ms :=
  List.filter_append ls ms

theorem spoken_fixed (ts : List Token) : spoken (fixed ts) = fixed ts := by
  refine List.filter_eq_self.2 fun l hl => ?_
  obtain ⟨t, -, rfl⟩ := List.mem_map.1 hl
  rfl

theorem spoken_commas : ∀ lss : List (List Lexeme), spoken (commas lss) = commas (lss.map spoken)
  | [] | [_] => rfl
  | ls :: ms :: lss => by
    simp only [commas, List.map_cons, spoken_append, spoken_fixed, spoken_commas (ms :: lss)]

/-- Tags are no tokens. -/
theorem tokens_spoken : ∀ (bound : Nat) (ls : List Lexeme), tokens bound (spoken ls) = tokens bound ls
  | _, [] => rfl
  | bound, token t :: ls => congrArg (t :: ·) (tokens_spoken bound ls)
  | bound, value _ :: ls => congrArg (Token.param (bound + 1) :: ·) (tokens_spoken (bound + 1) ls)
  | bound, tag _ :: ls => tokens_spoken bound ls

/-- Tags hold no values. -/
theorem values_spoken : ∀ ls : List Lexeme, values (spoken ls) = values ls
  | [] => rfl
  | token _ :: ls => values_spoken ls
  | value v :: ls => congrArg (v :: ·) (values_spoken ls)
  | tag _ :: ls => values_spoken ls

end Lexeme

open Lexeme (fixed spoken)

attribute [local simp] Lexeme.spoken_append Lexeme.spoken_fixed Lexeme.spoken_commas

@[local simp] theorem TableRef.spoken_lexemes (table : TableRef) :
    spoken table.lexemes = table.lexemes := by
  cases table <;> exact Lexeme.spoken_fixed _

@[local simp] theorem ColumnRef.spoken_lexemes (c : ColumnRef) : spoken c.lexemes = c.lexemes := by
  cases c <;> simp [ColumnRef.lexemes]

theorem Value.spoken_lexemes (v : Value) : spoken v.lexemes = v.lexemes := by
  rcases v with _ | _ | (_ | _) | _ | _ <;> rfl

theorem Count.spoken_lexemes (c : Count) : spoken c.lexemes = c.lexemes := by
  cases c <;> simp [Count.lexemes]

theorem Limit.spoken_lexemes : ∀ l : Limit, spoken l.lexemes = l.lexemes
  | ⟨none, none⟩ | ⟨some _, none⟩ | ⟨some _, some _⟩ | ⟨none, some _⟩ => rfl

theorem spoken_joins (joins : List CrossJoin) :
    spoken (joins.flatMap CrossJoin.lexemes) = joins.flatMap CrossJoin.lexemes := by
  induction joins with
  | nil => rfl
  | cons j joins ih => simp [CrossJoin.lexemes, TableAlias.lexemes, ih]

mutual

theorem Expr.Candid.spoken_lexemes : ∀ {e : Expr}, e.Candid → spoken e.lexemes = e.untag.lexemes
  | .and l r, h | .or l r, h | .compare _ l r, h => by
    simp [Expr.lexemes, Expr.untag, h.1.spoken_lexemes, h.2.spoken_lexemes]
  | .not e, h | .isNull e, h => by
    have he : spoken e.lexemes = e.untag.lexemes := Expr.Candid.spoken_lexemes h
    simp [Expr.lexemes, Expr.untag, he]
  | .isIn e options, h => by
    simp [Expr.lexemes, Expr.untag, h.1.spoken_lexemes, spoken_list h.2]
  | .call f args, h => by
    simp [Expr.lexemes, Expr.untag, spoken_list h]
  | .object entries, h => by
    simp [Expr.lexemes, Expr.untag, spoken_entries h]
  | .existsRow s, h | .subselect s, h => by
    have hs : spoken s.lexemes = s.untag.lexemes := Select.Candid.spoken_lexemes h
    simp [Expr.lexemes, Expr.untag, hs]
  | .column c, _ => c.spoken_lexemes
  | .value v, _ => v.spoken_lexemes
  | .count c, _ => by simp [Expr.lexemes, Expr.untag, c.spoken_lexemes]
  | .tagged tag e, h => by
    have he : spoken e.lexemes = e.untag.lexemes := Expr.Candid.spoken_lexemes h
    rw [Expr.untag, ← he, Expr.lexemes, Lexeme.spoken_append]
    exact List.append_nil _

theorem spoken_list : ∀ {es : List Expr}, ListCandid es →
    (listLexemes es).map spoken = listLexemes (listUntag es)
  | [], _ => rfl
  | e :: es, h => by simp [listLexemes, listUntag, h.1.spoken_lexemes, spoken_list h.2]

theorem spoken_entries : ∀ {es : List (String × Expr)}, EntriesCandid es →
    (entryLexemes es).map spoken = entryLexemes (entryUntag es)
  | [], _ => rfl
  | (key, e) :: es, h => by
    simp [entryLexemes, entryUntag, h.1.spoken_lexemes, spoken_entries h.2]

theorem spoken_items : ∀ {es : List (String × Expr)}, EntriesCandid es →
    (itemLexemes es).map spoken = itemLexemes (entryUntag es)
  | [], _ => rfl
  | (name, e) :: es, h => by
    simp [itemLexemes, entryUntag, h.1.spoken_lexemes, spoken_items h.2]

theorem spoken_orders : ∀ {es : List (Expr × Direction)}, OrderCandid es →
    (orderLexemes es).map spoken = orderLexemes (orderUntag es)
  | [], _ => rfl
  | (e, direction) :: es, h => by
    simp [orderLexemes, orderUntag, h.1.spoken_lexemes, spoken_orders h.2]

theorem SelectList.Candid.spoken_lexemes : ∀ {list : SelectList}, list.Candid →
    spoken list.lexemes = list.untag.lexemes
  | .items items, h => by
    have hitems := spoken_items h
    simp [SelectList.lexemes, SelectList.untag, hitems]
  | .star, _ | .one, _ => rfl

theorem Source.Candid.spoken_lexemes : ∀ {source : Source}, source.Candid →
    spoken source.lexemes = source.untag.lexemes
  | .table table a, _ => by simp [Source.lexemes, Source.untag, TableAlias.lexemes]
  | .select s a, h => by
    have hs : spoken s.lexemes = s.untag.lexemes := Select.Candid.spoken_lexemes h
    simp [Source.lexemes, Source.untag, TableAlias.lexemes, hs]

theorem spoken_optionalSource : ∀ {source : Option Source}, SourceCandid source →
    spoken (optionalSourceLexemes source) = optionalSourceLexemes (sourceUntag source)
  | none, _ => rfl
  | some source, h => @Source.Candid.spoken_lexemes source h

/-- A candid select is written as its erasure is, with tags put in. -/
theorem Select.Candid.spoken_lexemes : ∀ {s : Select}, s.Candid → spoken s.lexemes = s.untag.lexemes
  | ⟨list, source, joins, condition, orderBy, limit⟩, ⟨hlist, hsource, htrue, hcondition, horder⟩ => by
    have hwhere : spoken (conditionLexemes condition) = conditionLexemes condition.untag := by
      unfold conditionLexemes
      rw [htrue]
      split
      · rfl
      · simp [hcondition.spoken_lexemes]
    have hempty : (orderUntag orderBy).isEmpty = orderBy.isEmpty := by cases orderBy <;> rfl
    have hby : spoken (orderByLexemes orderBy) = orderByLexemes (orderUntag orderBy) := by
      unfold orderByLexemes
      rw [hempty]
      split
      · rfl
      · simp [spoken_orders horder]
    simp only [conditionLexemes, orderByLexemes] at hwhere hby
    simp only [Select.untag, Select.lexemes, Lexeme.spoken_append, Lexeme.spoken_fixed,
      hlist.spoken_lexemes, spoken_optionalSource hsource, spoken_joins, hwhere, hby,
      limit.spoken_lexemes]

end

/-! ### Erasures -/

/-- The expression is candid, and the other is the expression without its tags. -/
structure Expr.Erases (e e' : Expr) : Prop where
  untag : e.untag = e'
  candid : e.Candid

/-- The select is candid, and the other is the select without its tags. -/
structure Select.Erases (s s' : Select) : Prop where
  untag : s.untag = s'
  candid : s.Candid

/-- The source is candid, and the other is the source without its tags. -/
structure Source.Erases (s s' : Source) : Prop where
  untag : s.untag = s'
  candid : s.Candid

/-- An erasure of conditions, of which both or neither are left out. -/
structure Expr.ErasesCondition (e e' : Expr) : Prop extends e.Erases e' where
  isTrue : e'.isTrue = e.isTrue

namespace Expr

variable {l l' r r' : Expr}

theorem erases_always : always.ErasesCondition always := ⟨⟨rfl, trivial⟩, rfl⟩

theorem ErasesCondition.conj (hl : l.ErasesCondition l') (hr : r.ErasesCondition r') :
    (l.conj r).ErasesCondition (l'.conj r') := by
  unfold Expr.conj
  rw [hl.isTrue, hr.isTrue]
  by_cases hleft : l.isTrue = true
  · rwa [if_pos hleft, if_pos hleft]
  · rw [if_neg hleft, if_neg hleft]
    by_cases hright : r.isTrue = true
    · rwa [if_pos hright, if_pos hright]
    · rw [if_neg hright, if_neg hright]
      refine ⟨⟨?_, hl.candid, hr.candid⟩, rfl⟩
      rw [Expr.untag, hl.untag, hr.untag]

theorem ErasesCondition.foldl_conj {es es' : List Expr}
    (h : List.Forall₂ ErasesCondition es es') (hl : l.ErasesCondition l') :
    (es.foldl .conj l).ErasesCondition (es'.foldl .conj l') := by
  induction h generalizing l l' with
  | nil => exact hl
  | cons he _ ih => exact ih (hl.conj he)

/-- A disjunction of conditions is the constant true only if it has no second member. -/
theorem ErasesCondition.foldl_or {es es' : List Expr}
    (h : List.Forall₂ ErasesCondition es es') (hl : l.ErasesCondition l') :
    (es.foldl .or l).ErasesCondition (es'.foldl .or l') := by
  induction h generalizing l l' with
  | nil => exact hl
  | cons he _ ih =>
    refine ih ⟨⟨?_, hl.candid, he.candid⟩, rfl⟩
    rw [Expr.untag, hl.untag, he.untag]

end Expr

/-- A select of one item from one source, with a condition and a limit. -/
theorem Select.erases_single {name : String} {e e' condition condition' : Expr}
    {source source' : Source} (he : e.Erases e') (hsource : source.Erases source')
    (hcondition : condition.ErasesCondition condition') (limit : Limit) :
    Select.Erases ⟨.items [(name, e)], some source, [], condition, [], limit⟩
      ⟨.items [(name, e')], some source', [], condition', [], limit⟩ := by
  refine ⟨?_, ⟨he.candid, trivial⟩, hsource.candid, ?_, hcondition.candid, trivial⟩
  · rw [Select.untag, SelectList.untag, entryUntag, he.untag, sourceUntag, hsource.untag,
      hcondition.untag]
    rfl
  · rw [hcondition.untag, hcondition.isTrue]

end DataAgent.Sql
