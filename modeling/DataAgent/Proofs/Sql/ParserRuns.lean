import DataAgent.Proofs.Sql.Tokens
import DataAgent.Proofs.Sql.Parser

/-!
# Proofs — Sql — ParserRuns

How the parser goes over tokens it is meant to read, with what comes after them.

An expression goes on as long as an operator that binds strongly enough is next, so it is read as
meant only before other tokens (`Parser.Ends`). Elements with commas between them are read if each of
them is (`Parser.Listed`). Fuel is measured by the number of tokens (`Lexeme.size`).
-/

namespace DataAgent.Sql

namespace Lexeme

/-! ### Tokens of lexemes -/

/-- The number of tokens. -/
def size : List Lexeme → Nat
  | [] => 0
  | token _ :: rest | value _ :: rest => size rest + 1
  | tag _ :: rest => size rest

theorem length_tokens : ∀ (bound : Nat) (ls : List Lexeme), (tokens bound ls).length = size ls
  | _, [] => rfl
  | bound, token _ :: ls => congrArg (· + 1) (length_tokens bound ls)
  | bound, value _ :: ls => congrArg (· + 1) (length_tokens (bound + 1) ls)
  | bound, tag _ :: ls => length_tokens bound ls

theorem size_append (ls ms : List Lexeme) : size (ls ++ ms) = size ls + size ms := by
  rw [← length_tokens 0, tokens_append, List.length_append, length_tokens, length_tokens]

theorem size_fixed (ts : List Token) : size (fixed ts) = ts.length := by
  rw [← length_tokens 0, tokens_fixed]

theorem size_tag (t : String) (ls : List Lexeme) : size (tag t :: ls) = size ls := rfl

theorem tokens_tag (bound : Nat) (t : String) (ls : List Lexeme) :
    tokens bound (tag t :: ls) = tokens bound ls := rfl

theorem commas_cons (ls ms : List Lexeme) (lss : List (List Lexeme)) :
    commas (ls :: ms :: lss) = ls ++ (fixed [.symbol ","] ++ commas (ms :: lss)) := rfl

theorem size_le_commas : ∀ {lss : List (List Lexeme)}, ∀ ls ∈ lss, size ls ≤ size (commas lss)
  | [ls], _, h => by simp_all [commas]
  | ls :: ms :: lss, ks, h => by
    rw [commas_cons, size_append, size_append]
    rcases List.mem_cons.1 h with rfl | h
    · omega
    · have htail := size_le_commas ks h
      omega

theorem length_le_commas : ∀ lss : List (List Lexeme), lss.length ≤ size (commas lss) + 1
  | [] | [_] => by simp
  | ls :: ms :: lss => by
    have htail := length_le_commas (ms :: lss)
    rw [commas_cons, size_append, size_append, size_fixed]
    simp only [List.length_cons, List.length_nil] at htail ⊢
    omega

/-- Fuel for lexemes with commas between them is enough for each of them, and for their number. -/
theorem fits_of_commas {fuel : Nat} {lss : List (List Lexeme)}
    (h : 2 * size (commas lss) + 2 ≤ fuel) :
    lss.length ≤ fuel ∧ ∀ ls ∈ lss, 2 * size ls + 2 ≤ fuel := by
  refine ⟨?_, fun ls hls => ?_⟩
  · have hlength := length_le_commas lss
    omega
  · have hsize := size_le_commas ls hls
    omega

end Lexeme

open Lexeme (tokens values)

/-! ### What parsers read -/

namespace Parser

variable {α β : Type} {p : Parser α} {f : α → Parser β} {a : α} {t : Token} {ts rest : List Token}
  {least fuel bound : Nat}

theorem bind_eq (h : p ts = some (a, rest)) : (p >>= f) ts = f a rest := by
  show (p ts).bind _ = _
  rw [h]
  rfl

theorem expect_self : expect t (t :: ts) = some ((), ts) :=
  if_pos rfl

theorem accept_self : accept t (t :: ts) = some (true, ts) :=
  if_pos rfl

theorem accept_of_ne (h : ts.head? ≠ some t) : accept t ts = some (false, ts) :=
  if_neg h

theorem closed_eq (h : p ts = some (a, .symbol ")" :: rest)) : closed p ts = some (a, rest) := by
  unfold closed
  rw [bind_eq h, bind_eq expect_self]
  rfl

/-- No operator that binds at least so strongly is next. -/
def Ends (least : Nat) (ts : List Token) : Prop := operator least ts = some (none, ts)

theorem Ends.operators_eq {e : Parsed.Expr} (h : Ends least ts) (hfuel : 0 < fuel) :
    operators fuel least e ts = some (e, ts) := by
  obtain ⟨fuel, rfl⟩ := Nat.exists_eq_add_of_lt hfuel
  rw [Nat.zero_add]
  exact bind_eq h

theorem Ends.all (h : Ends 0 ts) : Ends least ts := by
  cases ts with
  | nil => rfl
  | cons t ts =>
    cases ht : Operator.ofToken t with
    | none => simp [Ends, operator, ht]
    -- every operator binds at least as strongly as zero
    | some op => simp [Ends, operator, ht] at h

/-- The tokens are none, or the first is one of these. -/
def Heads (allowed ts : List Token) : Prop := ∀ t, ts.head? = some t → t ∈ allowed

theorem heads_cons {allowed : List Token} (h : t ∈ allowed) : Heads allowed (t :: ts) := by
  intro u hu
  cases hu
  exact h

theorem Heads.accept_eq {allowed : List Token} (h : Heads allowed ts) (ht : t ∉ allowed) :
    accept t ts = some (false, ts) :=
  accept_of_ne fun hhead => ht (h t hhead)

theorem Heads.mono {allowed more : List Token} (h : Heads allowed ts) (hsub : allowed ⊆ more) :
    Heads more ts :=
  fun t ht => hsub (h t ht)

theorem Heads.ends {allowed : List Token} (h : Heads allowed ts)
    (hno : ∀ t ∈ allowed, Operator.ofToken t = none) : Ends least ts := by
  cases ts with
  | nil => rfl
  | cons t ts =>
    have ht := hno t (h t rfl)
    simp [Ends, operator, ht]

/-- Tokens that no operand begins with. -/
def outside : List Token := [.keyword "SELECT", .symbol ")", .symbol "*", .integer 1]

/-- The first token may begin an operand. -/
def Begins (ts : List Token) : Prop := ∃ t, ts.head? = some t ∧ t ∉ outside

theorem Begins.append (h : Begins ts) : Begins (ts ++ rest) := by
  obtain ⟨t, ht, hout⟩ := h
  exact ⟨t, by simp [List.head?_append, ht], hout⟩

theorem Begins.head?_ne (h : Begins ts) (ht : t ∈ outside) : ts.head? ≠ some t := by
  obtain ⟨u, hu, hout⟩ := h
  intro hhead
  rw [hu] at hhead
  cases hhead
  exact hout ht

/-! ### Lists -/

/-- The lexemes are read as the elements, one after the other, each before anything but an operator.
Their values are numbered on from `bound`. -/
inductive Listed (item : Parser α) : Nat → List (List Lexeme) → List α → Prop
  | nil {bound : Nat} : Listed item bound [] []
  | cons {bound : Nat} {ls : List Lexeme} {lss : List (List Lexeme)} {a : α} {as : List α}
      (begins : Begins (tokens bound ls))
      (read : ∀ rest, Ends 0 rest → item (tokens bound ls ++ rest) = some (a, rest))
      (more : Listed item (bound + (values ls).length) lss as) :
      Listed item bound (ls :: lss) (a :: as)

namespace Listed

variable {item : Parser α} {lss : List (List Lexeme)} {as : List α}

theorem begins_commas (h : Listed item bound lss as) (hne : lss ≠ []) :
    Begins (tokens bound (Lexeme.commas lss)) := by
  cases h with
  | nil => exact absurd rfl hne
  | @cons _ ls lss _ _ hbegins _ _ =>
    cases lss with
    | nil => exact hbegins
    | cons ms lss =>
      rw [Lexeme.commas_cons, Lexeme.tokens_append]
      exact hbegins.append

/-- Elements with commas between them are read if no other follows. -/
theorem commas_eq (h : Listed item bound lss as) (hne : lss ≠ []) (hfuel : lss.length ≤ fuel)
    (hends : Ends 0 rest) (hcomma : rest.head? ≠ some (.symbol ",")) :
    commas item fuel (tokens bound (Lexeme.commas lss) ++ rest) = some (as, rest) := by
  -- one fuel an element, so the induction is on the elements and gives up a fuel each time
  induction h generalizing fuel with
  | nil => exact absurd rfl hne
  | @cons bound ls lss a as _ hread hmore ih =>
    obtain ⟨fuel, rfl⟩ : ∃ k, fuel = k + 1 := ⟨fuel - 1, by simp at hfuel; omega⟩
    cases lss with
    | nil =>
      cases hmore
      show (item >>= _) _ = _
      rw [Lexeme.commas, bind_eq (hread rest hends), bind_eq (accept_of_ne hcomma)]
      rfl
    | cons ms lss =>
      have htokens : tokens bound (Lexeme.commas (ls :: ms :: lss)) ++ rest =
          tokens bound ls ++ .symbol "," ::
            (tokens (bound + (values ls).length) (Lexeme.commas (ms :: lss)) ++ rest) := by
        simp [Lexeme.commas_cons, Lexeme.tokens_append, Lexeme.tokens_fixed, Lexeme.values_fixed]
      have hrest := @ih fuel (by simp) (Nat.le_of_succ_le_succ hfuel)
      show (item >>= _) _ = _
      rw [htokens, bind_eq (hread (.symbol "," :: _) rfl), bind_eq accept_self]
      show (commas item _ >>= _) _ = _
      rw [bind_eq hrest]
      rfl

/-- Elements in parentheses are read, if there are any or none. -/
theorem arguments_eq (h : Listed item bound lss as) (hfuel : lss.length ≤ fuel) :
    arguments item fuel (tokens bound (Lexeme.commas lss) ++ .symbol ")" :: rest) =
      some (as, rest) := by
  by_cases hne : lss = []
  · subst hne
    cases h
    rfl
  · have hbegins : Begins (tokens bound (Lexeme.commas lss) ++ .symbol ")" :: rest) :=
      (h.begins_commas hne).append
    unfold arguments
    rw [bind_eq (accept_of_ne (hbegins.head?_ne (by decide)))]
    exact closed_eq (h.commas_eq hne hfuel rfl (by simp))

end Listed

/-! ### Operands and selects -/

theorem operand_not : operand (fuel + 1) (.keyword "NOT" :: ts) =
    (expr fuel Operator.negation >>= fun e => pure (.not e)) ts := rfl

theorem operand_exists : operand (fuel + 1) (.keyword "EXISTS" :: .symbol "(" :: ts) =
    (closed (select fuel) >>= fun s => pure (.existsRow s)) ts := rfl

theorem operand_subselect : operand (fuel + 1) (.symbol "(" :: .keyword "SELECT" :: ts) =
    (closed (select fuel) >>= fun s => pure (.subselect s)) (.keyword "SELECT" :: ts) := rfl

theorem operand_object : operand (fuel + 1) (.name "JSON_OBJECT" :: .symbol "(" :: ts) =
    (arguments (entry (expr fuel 0)) fuel >>= fun entries => pure (.object entries)) ts := rfl

theorem operand_count : operand (fuel + 1) (.name "COUNT" :: .symbol "(" :: ts) =
    (closed count >>= fun c => pure (.count c)) ts := rfl

theorem operand_call (f : Function) : operand (fuel + 1) (.name f.text :: .symbol "(" :: ts) =
    (arguments (expr fuel 0) fuel >>= fun args => pure (.call f args)) ts := by
  cases f <;> rfl

theorem select_clauses : select (fuel + 1) (.keyword "SELECT" :: ts) =
    (selectList (expr fuel 0) fuel >>= fun list =>
      sources (select fuel) fuel >>= fun tables =>
      condition (expr fuel 0) >>= fun condition =>
      order (expr fuel 0) fuel >>= fun orderBy =>
      limit >>= fun limit =>
      pure { list, source := tables.1, joins := tables.2, condition, orderBy, limit }) ts := rfl

end Parser

end DataAgent.Sql
