import DataAgent.Text.Quoted
import Mathlib

/-!
# Proofs — Sql — Lexer

The tokens of a statement's text, as the database reads them: from left to right and each as long as
it can be. A mode says what has been read of the token at hand (`Mode`). A character extends that
token if it can (`Mode.extend`); otherwise the token is finished (`Mode.finish`) and the character
begins the next (`Mode.begin`). In a name or text in quotes a doubled quote is the only escape, and
comments are skipped. What is in no token, or in one that is not finished, is an error.

`Scans follow text tokens` says that a text has the tokens whatever comes after it, if only that
begins with a character in `follow`. Texts that fit together in this way have their tokens one after
the other (`Scans.append`).
-/

namespace DataAgent.Sql

/-! ### Tokens -/

/-- A token of a statement. -/
inductive Token
  /-- A keyword, in capitals. -/
  | keyword (word : String)
  /-- A word that is no keyword. -/
  | name (word : String)
  /-- A name in double quotes. -/
  | identifier (name : String)
  /-- A text in single quotes. -/
  | literal (text : String)
  /-- A parameter, by its number. -/
  | param (index : Nat)
  | integer (value : Nat)
  | decimal (digits : String)
  | symbol (text : String)
  deriving DecidableEq, Repr

/-- The words that are no names. -/
def keywords : List String :=
  ["ABORT", "ACTION", "ADD", "AFTER", "ALL", "ALTER", "ALWAYS", "ANALYZE", "AND", "AS", "ASC",
    "ATTACH", "AUTOINCREMENT", "BEFORE", "BEGIN", "BETWEEN", "BY", "CASCADE", "CASE", "CAST",
    "CHECK", "COLLATE", "COLUMN", "COMMIT", "CONFLICT", "CONSTRAINT", "CREATE", "CROSS", "CURRENT",
    "CURRENT_DATE", "CURRENT_TIME", "CURRENT_TIMESTAMP", "DATABASE", "DEFAULT", "DEFERRABLE",
    "DEFERRED", "DELETE", "DESC", "DETACH", "DISTINCT", "DO", "DROP", "EACH", "ELSE", "END",
    "ESCAPE", "EXCEPT", "EXCLUDE", "EXCLUSIVE", "EXISTS", "EXPLAIN", "FAIL", "FILTER", "FIRST",
    "FOLLOWING", "FOR", "FOREIGN", "FROM", "FULL", "GENERATED", "GLOB", "GROUP", "GROUPS", "HAVING",
    "IF", "IGNORE", "IMMEDIATE", "IN", "INDEX", "INDEXED", "INITIALLY", "INNER", "INSERT", "INSTEAD",
    "INTERSECT", "INTO", "IS", "ISNULL", "JOIN", "KEY", "LAST", "LEFT", "LIKE", "LIMIT", "MATCH",
    "MATERIALIZED", "NATURAL", "NO", "NOT", "NOTHING", "NOTNULL", "NULL", "NULLS", "OF", "OFFSET",
    "ON", "OR", "ORDER", "OTHERS", "OUTER", "OVER", "PARTITION", "PLAN", "PRAGMA", "PRECEDING",
    "PRIMARY", "QUERY", "RAISE", "RANGE", "RECURSIVE", "REFERENCES", "REGEXP", "REINDEX", "RELEASE",
    "RENAME", "REPLACE", "RESTRICT", "RETURNING", "RIGHT", "ROLLBACK", "ROW", "ROWS", "SAVEPOINT",
    "SELECT", "SET", "TABLE", "TEMP", "TEMPORARY", "THEN", "TIES", "TO", "TRANSACTION", "TRIGGER",
    "UNBOUNDED", "UNION", "UNIQUE", "UPDATE", "USING", "VACUUM", "VALUES", "VIEW", "VIRTUAL", "WHEN",
    "WHERE", "WINDOW", "WITH", "WITHOUT"]

/-- The token of a word. Keywords are known in any case. -/
def Token.ofWord (word : List Char) : Token :=
  let capitals := String.ofList (word.map Char.toUpper)
  if capitals ∈ keywords then .keyword capitals else .name (String.ofList word)

/-- Operators and punctuation. -/
def symbols : List (List Char) :=
  [['('], [')'], [','], [';'], ['.'], ['+'], ['-'], ['-', '>'], ['-', '>', '>'], ['*'], ['/'], ['%'],
    ['='], ['=', '='], ['!', '='], ['<'], ['<', '='], ['<', '>'], ['<', '<'], ['>'], ['>', '='],
    ['>', '>'], ['&'], ['|'], ['|', '|'], ['~']]

/-- The characters begin a symbol. -/
def beginsSymbol (read : List Char) : Bool := symbols.any read.isPrefixOf

/-- What a word may begin with. -/
def isWordStart (c : Char) : Bool := c.isAlpha || c == '_' || 127 < c.toNat

/-- What a word may go on with. -/
def isWordChar (c : Char) : Bool := isWordStart c || c.isDigit || c == '$'

/-- White space. -/
def isSpace (c : Char) : Bool := [' ', '\t', '\n', '\x0c', '\r'].contains c

/-- The two kinds of quoted tokens. -/
inductive Quote
  | identifier
  | literal
  deriving DecidableEq, Repr

namespace Quote

/-- The quote of the kind. -/
def char : Quote → Char
  | identifier => '"'
  | literal    => '\''

/-- The token of a quoted name or text. -/
def token : Quote → String → Token
  | identifier => .identifier
  | literal    => .literal

end Quote

/-! ### The lexer -/

/-- What has been read of a token. -/
inductive Mode
  /-- Nothing. -/
  | start
  | word (read : List Char)
  | numeral (read : List Char)
  /-- A numeral with a point. -/
  | fraction (read : List Char)
  /-- A question mark and digits. -/
  | mark (read : List Char)
  | symbol (read : List Char)
  /-- A quote and the name or text after it. -/
  | quoted (quote : Quote) (read : List Char)
  /-- The same and a quote, which ends it unless another follows. -/
  | unquoted (quote : Quote) (read : List Char)
  /-- A comment, and whether a star was read last. -/
  | comment (star : Bool)
  /-- A comment to the end of the line. -/
  | line
  /-- A numeral with a word stuck to it. -/
  | illegal
  deriving DecidableEq, Repr

namespace Mode

/-- The mode after a character that does not begin a new token, if it does not. -/
def extend : Mode → Char → Option Mode
  | start, _ => none
  | word read, c => if isWordChar c then some (word (read ++ [c])) else none
  | numeral read, c =>
    if c.isDigit then some (numeral (read ++ [c]))
    else if c = '.' then some (fraction (read ++ [c]))
    else if isWordChar c then some illegal else none
  | fraction read, c =>
    if c.isDigit then some (fraction (read ++ [c])) else if isWordChar c then some illegal else none
  | mark read, c => if c.isDigit then some (mark (read ++ [c])) else none
  | symbol read, c =>
    if beginsSymbol (read ++ [c]) then some (symbol (read ++ [c]))
    else if read = ['-'] ∧ c = '-' then some line
    else if read = ['/'] ∧ c = '*' then some (comment false)
    else if read = ['.'] ∧ c.isDigit then some (fraction (read ++ [c])) else none
  | quoted q read, c => some (if c = q.char then unquoted q read else quoted q (read ++ [c]))
  | unquoted q read, c => if c = q.char then some (quoted q (read ++ [c])) else none
  | comment star, c => some (if star && c = '/' then start else comment (c = '*'))
  | line, c => some (if c = '\n' then start else line)
  | illegal, _ => some illegal

/-- The token that was read, if it is complete. -/
def finish : Mode → Option (List Token)
  | start | line => some []
  | word read => some [.ofWord read]
  | numeral read => some [.integer (Nat.ofDigitChars 10 read 0)]
  | fraction read => some [.decimal (String.ofList read)]
  | mark read => if read.isEmpty then none else some [.param (Nat.ofDigitChars 10 read 0)]
  | symbol read => if read ∈ symbols then some [.symbol (String.ofList read)] else none
  | unquoted q read => some [q.token (String.ofList read)]
  | quoted _ _ | comment _ | illegal => none

/-- The mode after the first character of a token. -/
def begin (c : Char) : Option Mode :=
  if isSpace c then some start
  else if isWordStart c then some (word [c])
  else if c.isDigit then some (numeral [c])
  else if c = '?' then some (mark [])
  else if c = Quote.identifier.char then some (quoted .identifier [])
  else if c = Quote.literal.char then some (quoted .literal [])
  else if beginsSymbol [c] then some (symbol [c]) else none

/-- The tokens that a text finishes, and the mode after it. -/
def run : Mode → List Char → Option (List Token × Mode)
  | m, [] => some ([], m)
  | m, c :: rest =>
    match m.extend c with
    | some next => run next rest
    | none => do
      let done ← m.finish
      let (tokens, last) ← run (← begin c) rest
      return (done ++ tokens, last)

end Mode

/-- The tokens of a text. -/
def lex (text : List Char) : Option (List Token) := do
  let (tokens, last) ← Mode.start.run text
  return tokens ++ (← last.finish)

/-! ### Runs of the lexer -/

namespace Mode

variable {m next : Mode} {c : Char} {t : List Char} {tokens : List Token}

theorem run_of_extend (h : m.extend c = some next) : m.run (c :: t) = next.run t := by
  rw [run, h]

theorem run_start : start.run (c :: t) = (begin c).bind fun first => first.run t := by
  simp only [run, extend, finish]
  cases begin c with
  | none => rfl
  | some first =>
    show (first.run t).bind _ = first.run t
    cases first.run t <;> rfl

/-- After a complete token that a character does not extend, the run goes on as from the start. -/
theorem run_of_stop (hfinish : m.finish = some tokens) (hstop : m.extend c = none) :
    m.run (c :: t) = (start.run (c :: t)).map fun r => (tokens ++ r.1, r.2) := by
  rw [run_start, run, hstop, hfinish]
  cases begin c with
  | none => rfl
  | some first =>
    show (first.run t).bind _ = (first.run t).map _
    cases first.run t <;> rfl

theorem run_append : ∀ (s : List Char) {m next : Mode} {tokens : List Token},
    m.run s = some (tokens, next) →
      m.run (s ++ t) = (next.run t).map fun r => (tokens ++ r.1, r.2)
  | [], m, _, tokens, h => by
    cases h
    exact Option.map_id'.symm
  | c :: s, m, _, tokens, h => by
    rw [List.cons_append]
    cases hextend : m.extend c with
    | some m' =>
      rw [run_of_extend hextend] at h ⊢
      exact run_append s h
    | none =>
      cases hfinish : m.finish with
      | none =>
        rw [run, hextend, hfinish] at h
        cases h
      | some done =>
        rw [run_of_stop hfinish hextend, run_start] at h ⊢
        cases hbegin : begin c with
        | none =>
          rw [hbegin] at h
          cases h
        | some first =>
          rw [hbegin] at h
          obtain ⟨⟨later, m'⟩, hrun, heq⟩ := Option.map_eq_some_iff.1 h
          cases heq
          have htail := run_append s hrun
          simp [htail, Function.comp_def]

/-- Characters that a token takes in are all read. -/
theorem run_extends {token : List Char → Mode} : ∀ (s : List Char) {read : List Char},
    (∀ c ∈ s, ∀ read, (token read).extend c = some (token (read ++ [c]))) →
      (token read).run s = some ([], token (read ++ s))
  | [], read, _ => by rw [run, List.append_nil]
  | c :: s, read, h => by
    rw [run_of_extend (h c (by simp) read), run_extends s fun d hd => h d (by simp [hd])]
    simp

end Mode

/-! ### Texts and what may follow them -/

/-- The text has the tokens if nothing follows, or a character in `follow`. -/
inductive Scans (follow : Char → Prop) (text : List Char) : List Token → Prop
  | intro {done last : List Token} {m : Mode} (run : Mode.start.run text = some (done, m))
      (finish : m.finish = some last) (stop : ∀ c, follow c → m.extend c = none) :
      Scans follow text (done ++ last)

namespace Scans

variable {f g : Char → Prop} {s t : List Char} {ts us : List Token}

theorem lex_eq (h : Scans f s ts) : lex s = some ts := by
  obtain ⟨hrun, hfinish, -⟩ := h
  simp [lex, hrun, hfinish]

theorem mono (h : Scans f s ts) (hg : ∀ c, g c → f c) : Scans g s ts := by
  obtain ⟨hrun, hfinish, hstop⟩ := h
  exact ⟨hrun, hfinish, fun c hc => hstop c (hg c hc)⟩

/-- Two texts have their tokens one after the other if the second begins with what may follow the
first, and so does what follows both if the second is empty. -/
theorem append (hs : Scans f s ts) (ht : Scans g t us) (hhead : ∀ c, t.head? = some c → f c)
    (hempty : t = [] → ∀ c, g c → f c) : Scans g (s ++ t) (ts ++ us) := by
  obtain ⟨hrunt, hfinisht, hstopt⟩ := ht
  cases t with
  | nil =>
    cases hrunt
    cases hfinisht
    simpa using hs.mono (hempty rfl)
  | cons c t =>
    obtain ⟨hruns, hfinishs, hstops⟩ := hs
    have hrun : Mode.start.run (s ++ c :: t) = _ := Mode.run_append s hruns
    rw [Mode.run_of_stop hfinishs (hstops c (hhead c rfl)), hrunt] at hrun
    simpa using Scans.intro hrun hfinisht hstopt

end Scans

/-! ### Quotes, numerals and comments -/

theorem Mode.run_quoted (q : Quote) : ∀ (text : List Char) {read : List Char},
    (quoted q read).run (Quoted.double q.char text ++ [q.char]) =
      some ([], unquoted q (read ++ text))
  | [], read => by simp [Quoted.double, run, extend]
  | c :: text, read => by
    by_cases hc : c = q.char
    · -- the doubled quote ends the text for one character
      simp only [Quoted.double, hc, if_true, List.cons_append]
      rw [run_of_extend (by simp [extend]; rfl), run_of_extend (by simp [extend]; rfl),
        run_quoted q text]
      simp
    · simp only [Quoted.double, hc, if_false, List.cons_append]
      rw [run_of_extend (by simp [extend, hc]; rfl), run_quoted q text]
      simp

/-- A text in quotes is one token, which holds the text, if no further quote follows. -/
theorem scans_quoted (q : Quote) (text : List Char) :
    Scans (· ≠ q.char) (Quoted.write q.char text) [q.token (String.ofList text)] := by
  have hbegin : Mode.begin q.char = some (.quoted q []) := by cases q <;> rfl
  have hrun : Mode.start.run (Quoted.write q.char text) = some ([], .unquoted q text) := by
    rw [Quoted.write, List.cons_append, Mode.run]
    simp [Mode.extend, Mode.finish, hbegin, Mode.run_quoted]
  exact .intro hrun rfl fun c hc => by simp [Mode.extend, hc]

theorem Mode.begin_of_isDigit {c : Char} (h : c.isDigit = true) :
    begin c = some (numeral [c]) := by
  have hspace : isSpace c = false := by
    rw [Bool.eq_false_iff]
    intro hc
    simp only [isSpace, List.contains_eq_mem, decide_eq_true_eq, List.mem_cons, List.not_mem_nil,
      or_false] at hc
    rcases hc with rfl | rfl | rfl | rfl | rfl <;> cases h
  have hword : isWordStart c = false := by
    have hle : c.toNat ≤ 57 := by
      simp only [Char.isDigit, Bool.and_eq_true, decide_eq_true_eq] at h
      exact UInt32.le_iff_toNat_le.1 h.2
    rw [Bool.eq_false_iff]
    intro hc
    simp only [isWordStart, Char.isAlpha, Char.isUpper, Char.isLower, Bool.or_eq_true,
      Bool.and_eq_true, decide_eq_true_eq, beq_iff_eq, ge_iff_le, UInt32.le_iff_toNat_le] at hc
    rcases hc with ((hc | hc) | rfl) | hc
    · exact absurd (Nat.le_trans hc.1 hle) (by decide)
    · exact absurd (Nat.le_trans hc.1 hle) (by decide)
    · exact absurd hle (by decide)
    · omega
  simp [begin, hspace, hword, h]

/-- The digits of a number are one token, which holds the number. -/
theorem scans_numeral (n : Nat) :
    Scans (fun c => isWordChar c = false ∧ c ≠ '.') (Nat.toDigits 10 n) [.integer n] := by
  have hdigit : ∀ c ∈ Nat.toDigits 10 n, c.isDigit = true :=
    fun c hc => Nat.isDigit_of_mem_toDigits (by decide) (by decide) hc
  have hrun : Mode.start.run (Nat.toDigits 10 n) = some ([], .numeral (Nat.toDigits 10 n)) := by
    cases hdigits : Nat.toDigits 10 n with
    | nil => exact absurd hdigits Nat.toDigits_ne_nil
    | cons c digits =>
      rw [hdigits] at hdigit
      rw [Mode.run_start, Mode.begin_of_isDigit (hdigit c (by simp))]
      refine Mode.run_extends digits fun d hd read => ?_
      simp [Mode.extend, hdigit d (by simp [hd])]
  have hfinish : (Mode.numeral (Nat.toDigits 10 n)).finish = some [.integer n] := by
    rw [Mode.finish, Nat.ofDigitChars_toDigits (by decide) (by decide)]
  refine .intro hrun hfinish fun c hc => ?_
  have hdigit : c.isDigit = false := by
    have hword := hc.1
    simp only [isWordChar, Bool.or_eq_false_iff] at hword
    exact hword.1.2
  simp [Mode.extend, hc, hdigit]

/-- A question mark and the digits of a number are a parameter. -/
theorem scans_param (n : Nat) :
    Scans (fun c => c.isDigit = false) ('?' :: Nat.toDigits 10 n) [.param n] := by
  have hrun : Mode.start.run ('?' :: Nat.toDigits 10 n) = some ([], .mark (Nat.toDigits 10 n)) := by
    refine Mode.run_start.trans (Mode.run_extends (Nat.toDigits 10 n) fun c hc read => ?_)
    simp [Mode.extend, Nat.isDigit_of_mem_toDigits (by decide) (by decide) hc]
  have hfinish : (Mode.mark (Nat.toDigits 10 n)).finish = some [.param n] := by
    simp [Mode.finish]
  exact .intro hrun hfinish fun c hc => by simp [Mode.extend, hc]

/-- The end of a comment is in the text. -/
def EndsComment (text : List Char) : Prop := ['*', '/'] <:+: text

instance (text : List Char) : Decidable (EndsComment text) :=
  inferInstanceAs (Decidable (['*', '/'] <:+: text))

/-- Within a comment, a text that does not end it is skipped. -/
theorem Mode.run_comment : ∀ (text : List Char) {star : Bool}, ¬ EndsComment text →
    (star = true → text.head? ≠ some '/') →
      ∃ star', (comment star).run text = some ([], comment star')
  | [], star, _, _ => ⟨star, rfl⟩
  | c :: text, star, hend, hstar => by
    have hslash : (star && decide (c = '/')) = false := by
      cases star with
      | false => rfl
      | true => simpa using hstar rfl
    have htail : ¬ EndsComment text := fun h => hend (List.infix_cons h)
    have hnext : decide (c = '*') = true → text.head? ≠ some '/' := by
      intro hc hhead
      obtain ⟨rest, rfl⟩ := List.head?_eq_some_iff.1 hhead
      rw [of_decide_eq_true hc] at hend
      exact hend ⟨[], rest, rfl⟩
    obtain ⟨star', hrun⟩ := run_comment text htail hnext
    exact ⟨star', (run_of_extend (by simp [extend, hslash])).trans hrun⟩

/-- A comment is no token, and anything may follow it. -/
theorem scans_comment {text : List Char} (h : ¬ EndsComment text) :
    Scans (fun _ => True) ('/' :: '*' :: text ++ ['*', '/']) [] := by
  obtain ⟨star, hrun⟩ := @Mode.run_comment text false h (by simp)
  have hopen : Mode.start.run ('/' :: '*' :: text) = some ([], .comment star) :=
    have hslash : (Mode.symbol ['/']).extend '*' = some (.comment false) := rfl
    Mode.run_start.trans ((Mode.run_of_extend hslash).trans hrun)
  have hclose : (Mode.comment star).run ['*', '/'] = some ([], .start) := by cases star <;> rfl
  have hall : Mode.start.run ('/' :: '*' :: text ++ ['*', '/']) = some ([], .start) := by
    rw [Mode.run_append _ hopen, hclose]
    rfl
  exact .intro hall rfl fun _ _ => rfl

end DataAgent.Sql
