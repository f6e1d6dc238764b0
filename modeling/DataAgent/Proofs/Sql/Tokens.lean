import DataAgent.Proofs.Sql.Lexer
import DataAgent.Sql.Render

/-!
# Proofs — Sql — Tokens

The tokens that a statement is meant to have, said over the statement itself (`Select.lexemes`), and
that the lexer finds exactly these in its text, whatever its names, keys and values are. Names and
keys are tokens of their own; values are parameters, numbered from left to right; tags are comments
and no tokens, if none of them ends its comment early (`Lexeme.Quiet`).

The text is put together from pieces, so the argument is about pieces that read as lexemes
(`Reads`): it suffices that each piece ends where the next begins. Openers such as `NOT (` may stand
before anything (`Reads.opened`). All else is followed by a blank, a comma or a closing parenthesis,
or by nothing (`Reads.followed`).
-/

namespace DataAgent.Sql

/-! ### Lexemes -/

/-- A token of a statement, or the value of a parameter that is not numbered yet, or a tag. -/
inductive Lexeme
  | token (token : Token)
  | value (value : Param)
  | tag (tag : String)
  deriving DecidableEq, Repr

namespace Lexeme

/-- Tokens that are the same in all statements of a form. -/
def fixed (tokens : List Token) : List Lexeme := tokens.map token

/-- The values of parameters, in order. -/
def values (lexemes : List Lexeme) : List Param :=
  lexemes.filterMap fun | value v => some v | _ => none

/-- The tokens, `bound` parameters having been numbered before. -/
def tokens (bound : Nat) : List Lexeme → List Token
  | [] => []
  | token t :: rest => t :: tokens bound rest
  | value _ :: rest => .param (bound + 1) :: tokens (bound + 1) rest
  | tag _ :: rest => tokens bound rest

/-- Lexemes with commas between them. -/
def commas : List (List Lexeme) → List Lexeme
  | [] => []
  | [lexemes] => lexemes
  | lexemes :: rest => lexemes ++ (fixed [.symbol ","] ++ commas rest)

/-- No tag ends a comment. -/
def Quiet (lexemes : List Lexeme) : Prop :=
  ∀ t, tag t ∈ lexemes → ¬ EndsComment t.toList

end Lexeme

open Lexeme (fixed)

/-- The lexemes of an alias. -/
def TableAlias.lexemes (a : TableAlias) : List Lexeme := fixed [.identifier a.label]

/-- The lexemes of a table. -/
def TableRef.lexemes : TableRef → List Lexeme
  | .table name => fixed [.identifier name]
  | .aliased a  => a.lexemes

/-- The lexemes of a column. -/
def ColumnRef.lexemes : ColumnRef → List Lexeme
  | .stored table name | .derived table name =>
    table.lexemes ++ fixed [.symbol ".", .identifier name]

/-- The symbol of a comparison. -/
def Comparison.symbol : Comparison → String
  | .equal => "="
  | .greater => ">"
  | .greaterOrEqual => ">="
  | .less => "<"
  | .lessOrEqual => "<="

/-- The lexemes of a constant. -/
def Value.lexemes : Value → List Lexeme
  | .int n => [.value (.int n)]
  | .double x => [.value (.double x)]
  | .string s => [.value (.string s)]
  | .bool true => fixed [.name "TRUE"]
  | .bool false => fixed [.name "FALSE"]
  | .null => fixed [.keyword "NULL"]

/-- The lexemes of what is counted. -/
def Count.lexemes : Count → List Lexeme
  | .rows => fixed [.symbol "*"]
  | .values column => column.lexemes
  | .distinct column => fixed [.keyword "DISTINCT"] ++ column.lexemes

/-- The keyword of a direction. -/
def directionWord : Direction → String
  | .asc  => "ASC"
  | .desc => "DESC"

/-- The lexemes of a limit. -/
def Limit.lexemes : Limit → List Lexeme
  | ⟨none, none⟩ => []
  | ⟨some limit, none⟩ => fixed [.keyword "LIMIT", .integer limit]
  | ⟨some limit, some offset⟩ =>
    fixed [.keyword "LIMIT", .integer limit, .keyword "OFFSET", .integer offset]
  | ⟨none, some offset⟩ =>
    fixed [.keyword "LIMIT", .symbol "-", .integer 1, .keyword "OFFSET", .integer offset]

/-- The lexemes of a joined table. -/
def CrossJoin.lexemes (j : CrossJoin) : List Lexeme :=
  fixed [.keyword "CROSS", .keyword "JOIN"] ++ j.table.lexemes ++
    (fixed [.keyword "AS"] ++ j.label.lexemes)

mutual

/-- The lexemes of an expression. -/
def Expr.lexemes : Expr → List Lexeme
  | .and l r =>
    fixed [.symbol "("] ++ l.lexemes ++ (fixed [.keyword "AND"] ++ r.lexemes) ++ fixed [.symbol ")"]
  | .or l r =>
    fixed [.symbol "("] ++ l.lexemes ++ (fixed [.keyword "OR"] ++ r.lexemes) ++ fixed [.symbol ")"]
  | .not e => fixed [.keyword "NOT", .symbol "("] ++ e.lexemes ++ fixed [.symbol ")"]
  | .compare op l r =>
    fixed [.symbol "("] ++ l.lexemes ++ (fixed [.symbol op.symbol] ++ r.lexemes) ++
      fixed [.symbol ")"]
  | .isIn e options =>
    fixed [.symbol "("] ++ e.lexemes ++
      (fixed [.keyword "IN"] ++ (fixed [.symbol "("] ++ Lexeme.commas (listLexemes options))) ++
      fixed [.symbol ")", .symbol ")"]
  | .isNull e =>
    fixed [.symbol "("] ++ e.lexemes ++ fixed [.keyword "IS", .keyword "NULL", .symbol ")"]
  | .call f args =>
    fixed [.name f.text, .symbol "("] ++ Lexeme.commas (listLexemes args) ++ fixed [.symbol ")"]
  | .existsRow s => fixed [.keyword "EXISTS", .symbol "("] ++ s.lexemes ++ fixed [.symbol ")"]
  | .object entries =>
    fixed [.name "JSON_OBJECT", .symbol "("] ++ Lexeme.commas (entryLexemes entries) ++
      fixed [.symbol ")"]
  | .column c => c.lexemes
  | .value v => v.lexemes
  | .count c => fixed [.name "COUNT", .symbol "("] ++ c.lexemes ++ fixed [.symbol ")"]
  | .subselect s => fixed [.symbol "("] ++ s.lexemes ++ fixed [.symbol ")"]
  | .tagged tag e => .tag tag :: e.lexemes ++ [.tag tag]

/-- The lexemes of each expression. -/
def listLexemes : List Expr → List (List Lexeme)
  | [] => []
  | e :: rest => e.lexemes :: listLexemes rest

/-- The lexemes of each key with its value. -/
def entryLexemes : List (String × Expr) → List (List Lexeme)
  | [] => []
  | (key, e) :: rest =>
    (fixed [.literal key] ++ (fixed [.symbol ","] ++ e.lexemes)) :: entryLexemes rest

/-- The lexemes of each expression with its name. -/
def itemLexemes : List (String × Expr) → List (List Lexeme)
  | [] => []
  | (name, e) :: rest => (e.lexemes ++ fixed [.keyword "AS", .identifier name]) :: itemLexemes rest

/-- The lexemes of each order. -/
def orderLexemes : List (Expr × Direction) → List (List Lexeme)
  | [] => []
  | (e, direction) :: rest =>
    (e.lexemes ++ fixed [.keyword (directionWord direction)]) :: orderLexemes rest

/-- The lexemes of what a select yields. -/
def SelectList.lexemes : SelectList → List Lexeme
  | .items items => Lexeme.commas (itemLexemes items)
  | .star => fixed [.symbol "*"]
  | .one => fixed [.integer 1]

/-- The lexemes of where a select takes its rows from. -/
def Source.lexemes : Source → List Lexeme
  | .table table a =>
    fixed [.keyword "FROM"] ++ table.lexemes ++ (fixed [.keyword "AS"] ++ a.lexemes)
  | .select s a =>
    fixed [.keyword "FROM", .symbol "("] ++ s.lexemes ++
      (fixed [.symbol ")", .keyword "AS"] ++ a.lexemes)

/-- The lexemes of a source that may be absent. -/
def optionalSourceLexemes : Option Source → List Lexeme
  | none => []
  | some source => source.lexemes

/-- The lexemes of a select. -/
def Select.lexemes : Select → List Lexeme
  | ⟨list, source, joins, condition, orderBy, limit⟩ =>
    fixed [.keyword "SELECT"] ++ list.lexemes ++ optionalSourceLexemes source ++
      joins.flatMap CrossJoin.lexemes ++
      (if condition.isTrue then [] else fixed [.keyword "WHERE"] ++ condition.lexemes) ++
      (if orderBy.isEmpty then []
        else fixed [.keyword "ORDER", .keyword "BY"] ++ Lexeme.commas (orderLexemes orderBy)) ++
      limit.lexemes

end

/-! ### Pieces that read as lexemes -/

namespace Lexeme

theorem tokens_fixed (bound : Nat) : ∀ ts : List Token, tokens bound (fixed ts) = ts
  | [] => rfl
  | t :: ts => congrArg (t :: ·) (tokens_fixed bound ts)

theorem values_fixed : ∀ ts : List Token, values (fixed ts) = []
  | [] => rfl
  | _ :: ts => values_fixed ts

theorem values_append (ls ms : List Lexeme) : values (ls ++ ms) = values ls ++ values ms :=
  List.filterMap_append

theorem tokens_append : ∀ (bound : Nat) (ls ms : List Lexeme),
    tokens bound (ls ++ ms) = tokens bound ls ++ tokens (bound + (values ls).length) ms
  | _, [], _ => rfl
  | bound, token t :: ls, ms => congrArg (t :: ·) (tokens_append bound ls ms)
  | bound, tag _ :: ls, ms => tokens_append bound ls ms
  | bound, value v :: ls, ms => by
    have hlength : (values (value v :: ls)).length = 1 + (values ls).length := by
      simp [values, Nat.add_comm]
    simp only [List.cons_append, tokens, tokens_append (bound + 1) ls ms, hlength, Nat.add_assoc]

theorem Quiet.of_append {ls ms : List Lexeme} (h : Quiet (ls ++ ms)) : Quiet ls ∧ Quiet ms :=
  ⟨fun t ht => h t (List.mem_append_left _ ht), fun t ht => h t (List.mem_append_right _ ht)⟩

end Lexeme

theorem Piece.params_append (ps qs : List Piece) :
    Piece.params (ps ++ qs) = Piece.params ps ++ Piece.params qs :=
  List.filterMap_append

theorem Piece.chars_append : ∀ (bound : Nat) (ps qs : List Piece),
    Piece.chars bound (ps ++ qs) =
      Piece.chars bound ps ++ Piece.chars (bound + (Piece.params ps).length) qs
  | _, [], _ => rfl
  | bound, .raw _ :: ps, qs | bound, .comment _ :: ps, qs | bound, .identifier _ :: ps, qs
  | bound, .literal _ :: ps, qs => by
    simp only [List.cons_append, Piece.chars, Piece.chars_append bound ps qs, List.append_assoc]
    rfl
  | bound, .param v :: ps, qs => by
    have hlength : (Piece.params (.param v :: ps)).length = 1 + (Piece.params ps).length := by
      simp [Piece.params, Nat.add_comm]
    simp only [List.cons_append, Piece.chars, Piece.chars_append (bound + 1) ps qs, hlength,
      Nat.add_assoc, List.append_assoc]

/-- The pieces have the values of the lexemes, and their text has the tokens. -/
structure Reads (follow : Char → Prop) (pieces : List Piece) (lexemes : List Lexeme) : Prop where
  params : Piece.params pieces = Lexeme.values lexemes
  scans : Lexeme.Quiet lexemes → ∀ bound,
    Scans follow (Piece.chars bound pieces) (Lexeme.tokens bound lexemes)

/-- What follows an expression or a clause in a statement. -/
def isStop (c : Char) : Bool := c == ' ' || c == ',' || c == ')'

/-- Anything may follow. -/
abbrev Open : Char → Prop := fun _ => True

/-- What may follow an expression or a clause. -/
abbrev Stop : Char → Prop := fun c => isStop c = true

theorem Stop.cases {P : Char → Prop} (hblank : P ' ') (hcomma : P ',') (hclose : P ')') :
    ∀ c, Stop c → P c := by
  intro c hc
  simp only [Stop, isStop, Bool.or_eq_true, beq_iff_eq] at hc
  rcases hc with (rfl | rfl) | rfl
  · exact hblank
  · exact hcomma
  · exact hclose

/-- The pieces are none, or their text begins with what may follow an expression. -/
def Trails (pieces : List Piece) : Prop :=
  ∀ bound c, (Piece.chars bound pieces).head? = some c → Stop c

theorem trails_nil : Trails [] := fun _ _ h => by cases h

theorem trails_raw {text : String} {ps : List Piece} {c : Char} {rest : List Char}
    (htext : text.toList = c :: rest) (hc : isStop c = true) : Trails (.raw text :: ps) := by
  intro bound d hd
  rw [Piece.chars, htext] at hd
  cases hd
  exact hc

/-- The token at hand takes in no character. -/
def Mode.isSettled (m : Mode) : Bool := m == start || m == symbol ['('] || m == symbol [')']

/-- The token at hand takes in no character that may follow an expression. -/
def Mode.isClosed (m : Mode) : Bool := [' ', ',', ')'].all fun c => (m.extend c).isNone

theorem Mode.extend_of_isSettled {m : Mode} (h : m.isSettled = true) :
    ∀ c, Open c → m.extend c = none := by
  intro c _
  simp only [isSettled, Bool.or_eq_true, beq_iff_eq] at h
  rcases h with (rfl | rfl) | rfl
  · rfl
  · simp [extend, beginsSymbol, symbols]
  · simp [extend, beginsSymbol, symbols]

theorem Mode.extend_of_isClosed {m : Mode} (h : m.isClosed = true) :
    ∀ c, Stop c → m.extend c = none := by
  simp only [isClosed, List.all_cons, List.all_nil, Bool.and_true, Bool.and_eq_true,
    Option.isNone_iff_eq_none] at h
  exact Stop.cases h.1 h.2.1 h.2.2

/-- The tokens of a text that leaves the lexer in such a mode. -/
def tokensLeaving (ok : Mode → Bool) (text : String) : Option (List Token) :=
  (Mode.start.run text.toList).bind fun r => if ok r.2 then r.2.finish.map (r.1 ++ ·) else none

theorem scans_of_tokensLeaving {f : Char → Prop} {ok : Mode → Bool} {text : String}
    {ts : List Token} (hok : ∀ {m : Mode}, ok m = true → ∀ c, f c → m.extend c = none)
    (h : tokensLeaving ok text = some ts) : Scans f text.toList ts := by
  obtain ⟨⟨done, m⟩, hrun, hend⟩ := Option.bind_eq_some_iff.1 h
  split at hend
  · next hm =>
    obtain ⟨last, hfinish, rfl⟩ := Option.map_eq_some_iff.1 hend
    exact .intro hrun hfinish (hok hm)
  · cases hend

namespace Reads

variable {f g : Char → Prop} {ps qs : List Piece} {ls ms : List Lexeme} {text : String}
  {ts : List Token}

theorem mono (h : Reads f ps ls) (hg : ∀ c, g c → f c) : Reads g ps ls :=
  ⟨h.params, fun hquiet bound => (h.scans hquiet bound).mono hg⟩

theorem append (hp : Reads f ps ls) (hq : Reads g qs ms)
    (hhead : ∀ bound c, (Piece.chars bound qs).head? = some c → f c)
    (hempty : ∀ bound, Piece.chars bound qs = [] → ∀ c, g c → f c) :
    Reads g (ps ++ qs) (ls ++ ms) := by
  refine ⟨?_, fun hquiet bound => ?_⟩
  · rw [Piece.params_append, Lexeme.values_append, hp.params, hq.params]
  · obtain ⟨hls, hms⟩ := hquiet.of_append
    rw [Piece.chars_append, Lexeme.tokens_append, hp.params]
    exact (hp.scans hls bound).append (hq.scans hms _) (hhead _) (hempty _)

theorem nil : Reads g [] [] := ⟨rfl, fun _ _ => @Scans.intro g [] [] [] .start rfl rfl fun _ _ => rfl⟩

theorem raw (h : Scans f text.toList ts) : Reads f [.raw text] (fixed ts) := by
  refine ⟨(Lexeme.values_fixed ts).symm, fun _ bound => ?_⟩
  rw [Lexeme.tokens_fixed, Piece.chars, Piece.chars, List.append_nil]
  exact h

/-- An opener before pieces. -/
theorem opened (h : tokensLeaving Mode.isSettled text = some ts) (hps : Reads g ps ls) :
    Reads g (.raw text :: ps) (fixed ts ++ ls) :=
  (raw (scans_of_tokensLeaving Mode.extend_of_isSettled h)).append hps (fun _ _ _ => trivial)
    fun _ _ _ _ => trivial

/-- A text that ends a clause. -/
theorem closed (h : tokensLeaving Mode.isClosed text = some ts) :
    Reads Stop [.raw text] (fixed ts) :=
  raw (scans_of_tokensLeaving Mode.extend_of_isClosed h)

/-- A clause, with what follows it. -/
theorem followed (hps : Reads Stop ps ls) (hqs : Reads Stop qs ms) (htrails : Trails qs) :
    Reads Stop (ps ++ qs) (ls ++ ms) :=
  hps.append hqs htrails fun _ _ _ => id

theorem identifier (name : String) :
    Reads (· ≠ '"') [.identifier name] (fixed [.identifier name]) := by
  refine ⟨rfl, fun _ bound => ?_⟩
  have h := scans_quoted .identifier name.toList
  rw [String.ofList_toList] at h
  rwa [Lexeme.tokens_fixed, Piece.chars, Piece.chars, List.append_nil]

theorem literal (text : String) : Reads (· ≠ '\'') [.literal text] (fixed [.literal text]) := by
  refine ⟨rfl, fun _ bound => ?_⟩
  have h := scans_quoted .literal text.toList
  rw [String.ofList_toList] at h
  rwa [Lexeme.tokens_fixed, Piece.chars, Piece.chars, List.append_nil]

theorem param (v : Param) : Reads Stop [.param v] [.value v] := by
  refine ⟨rfl, fun _ bound => ?_⟩
  rw [Piece.chars, Piece.chars, List.append_nil]
  exact (scans_param (bound + 1)).mono (Stop.cases rfl rfl rfl)

/-- A comment is skipped if it ends early only where its tag ends comments. -/
theorem comment {tag : String} (h : EndsComment text.toList → EndsComment tag.toList) :
    Reads Open [.comment text] [.tag tag] := by
  refine ⟨rfl, fun hquiet bound => ?_⟩
  have htag := hquiet tag (by simp)
  exact scans_comment fun hend => htag (h hend)

end Reads

/-! ### The texts of statements -/

/-- A tag in angle brackets ends comments only if the tag does. -/
theorem EndsComment.of_bracketed {text : List Char} (h : EndsComment (text ++ ['>'])) :
    EndsComment text := by
  rcases List.infix_concat_iff.1 h with hsuffix | hinfix
  · obtain ⟨before, heq⟩ := hsuffix
    have hlast := congrArg List.getLast? heq
    simp at hlast
  · exact hinfix

theorem EndsComment.of_cons {c : Char} {text : List Char} (h : EndsComment (c :: text))
    (hc : c ≠ '*') : EndsComment text := by
  rcases List.infix_cons_iff.1 h with hstart | hinfix
  · exact absurd (List.cons_prefix_cons.1 hstart).1.symm hc
  · exact hinfix

theorem reads_openingTag (tag : String) :
    Reads Open [.comment ("<" ++ tag ++ ">")] [.tag tag] := by
  refine .comment fun h => ?_
  rw [String.toList_append, String.toList_append] at h
  exact (h.of_cons (by decide)).of_bracketed

theorem reads_closingTag (tag : String) :
    Reads Open [.comment ("</" ++ tag ++ ">")] [.tag tag] := by
  refine .comment fun h => ?_
  rw [String.toList_append, String.toList_append] at h
  exact ((h.of_cons (by decide)).of_cons (by decide)).of_bracketed

theorem TableAlias.reads (a : TableAlias) : Reads (· ≠ '"') a.pieces a.lexemes :=
  .identifier a.label

theorem TableRef.reads : ∀ t : TableRef, Reads (· ≠ '"') t.pieces t.lexemes
  | .table name => .identifier name
  | .aliased a  => a.reads

/-- No quote may follow an expression. -/
theorem Stop.ne_quote : ∀ c, Stop c → c ≠ '"' := Stop.cases (by decide) (by decide) (by decide)

theorem reads_dotted (t : TableRef) (name : String) :
    Reads Stop (t.pieces ++ [.raw ".", .identifier name])
      (t.lexemes ++ fixed [.symbol ".", .identifier name]) := by
  have hdot : Scans (· = '"') ".".toList [.symbol "."] :=
    @Scans.intro _ _ [] [.symbol "."] (.symbol ['.']) rfl rfl (by rintro c rfl; rfl)
  have hname : Reads (· ≠ '"') [.raw ".", .identifier name]
      (fixed [.symbol ".", .identifier name]) := by
    refine (Reads.raw hdot).append (.identifier name) ?_ ?_
    · intro bound c hc
      cases hc
      rfl
    · intro bound hnil
      cases hnil
  refine (t.reads.append hname ?_ fun _ _ _ => id).mono Stop.ne_quote
  intro bound c hc
  cases hc
  decide

theorem ColumnRef.reads : ∀ c : ColumnRef, Reads Stop c.pieces c.lexemes
  | .stored table name | .derived table name => reads_dotted table name

theorem Value.reads : ∀ v : Value, Reads Stop v.pieces v.lexemes
  | .int n => .param (.int n)
  | .double x => .param (.double x)
  | .string s => .param (.string s)
  | .bool true | .bool false | .null => .closed rfl

theorem Count.reads : ∀ c : Count, Reads Stop c.pieces c.lexemes
  | .rows => .closed rfl
  | .values column => column.reads
  | .distinct column => .opened rfl column.reads

/-- What a word with blanks around it, or one that ends in a parenthesis, joins to a clause. -/
theorem Reads.joined {text : String} {rest : List Char} {ps qs : List Piece} {ls ms : List Lexeme}
    {ts : List Token} (hps : Reads Stop ps ls) (hqs : Reads Stop qs ms)
    (h : tokensLeaving Mode.isSettled text = some ts) (htext : text.toList = ' ' :: rest) :
    Reads Stop (ps ++ .raw text :: qs) (ls ++ (fixed ts ++ ms)) :=
  hps.followed (.opened h hqs) (trails_raw htext rfl)

/-- A closing parenthesis after a clause. -/
theorem Reads.shut {ps : List Piece} {ls : List Lexeme} (h : Reads Stop ps ls) :
    Reads Stop (ps ++ [.raw ")"]) (ls ++ fixed [.symbol ")"]) :=
  h.followed (.closed rfl) (trails_raw rfl rfl)

theorem reads_named {name : String} {ps : List Piece} {ls : List Lexeme} (h : Reads Stop ps ls) :
    Reads Stop (ps ++ [.raw " AS ", .identifier name])
      (ls ++ fixed [.keyword "AS", .identifier name]) := by
  have hname : Reads Stop [.identifier name] (fixed [.identifier name]) :=
    (Reads.identifier name).mono Stop.ne_quote
  have hjoined : Reads Stop (ps ++ [.raw " AS ", .identifier name])
      (ls ++ (fixed [.keyword "AS"] ++ fixed [.identifier name])) := h.joined hname rfl rfl
  exact hjoined

theorem CrossJoin.reads (j : CrossJoin) : Reads Stop j.pieces j.lexemes :=
  (Reads.opened rfl (j.table.reads.mono Stop.ne_quote)).joined
    (j.label.reads.mono Stop.ne_quote) rfl rfl

theorem reads_joins : ∀ joins : List CrossJoin,
    Reads Stop (joins.flatMap CrossJoin.pieces) (joins.flatMap CrossJoin.lexemes)
  | [] => .nil
  | j :: joins => by
    rw [List.flatMap_cons, List.flatMap_cons]
    refine j.reads.followed (reads_joins joins) ?_
    cases joins with
    | nil => exact trails_nil
    | cons => exact trails_raw rfl rfl

/-- A word with a blank after it, before a number. -/
theorem scans_numbered (text : String) (ts : List Token) (n : Nat)
    (h : tokensLeaving Mode.isSettled text = some ts) :
    Scans (fun c => isWordChar c = false ∧ c ≠ '.') (text.toList ++ (toString n).toList)
      (ts ++ [.integer n]) := by
  rw [Nat.toString_eq_repr, Nat.toList_repr]
  exact (scans_of_tokensLeaving Mode.extend_of_isSettled h).append (scans_numeral n)
    (fun _ _ => trivial) fun _ _ _ => trivial

/-- A number ends where an expression may. -/
theorem Stop.ends_numeral : ∀ c, Stop c → isWordChar c = false ∧ c ≠ '.' :=
  Stop.cases (by decide) (by decide) (by decide)

theorem Limit.reads : ∀ l : Limit, Reads Stop l.pieces l.lexemes
  | ⟨none, none⟩ => .nil
  | ⟨some limit, none⟩ => by
    have hscans := scans_numbered " LIMIT " [.keyword "LIMIT"] limit rfl
    rw [← String.toList_append] at hscans
    exact .raw (hscans.mono Stop.ends_numeral)
  | ⟨some limit, some offset⟩ => by
    have hlimit := scans_numbered " LIMIT " [.keyword "LIMIT"] limit rfl
    have hoffset := scans_numbered " OFFSET " [.keyword "OFFSET"] offset rfl
    have hscans := hlimit.append hoffset (by rintro c ⟨⟩; decide) fun _ _ => id
    simp only [← String.toList_append, ← String.append_assoc] at hscans
    exact .raw (hscans.mono Stop.ends_numeral)
  | ⟨none, some offset⟩ => by
    have hscans := scans_numbered " LIMIT -1 OFFSET "
      [.keyword "LIMIT", .symbol "-", .integer 1, .keyword "OFFSET"] offset rfl
    rw [← String.toList_append] at hscans
    exact .raw (hscans.mono Stop.ends_numeral)

theorem Limit.trails : ∀ l : Limit, Trails l.pieces
  | ⟨none, none⟩ => trails_nil
  | ⟨some limit, none⟩ | ⟨some limit, some offset⟩ | ⟨none, some offset⟩ => by
    intro bound c hc
    simp [Limit.pieces, Piece.chars] at hc
    subst hc
    rfl

theorem reads_commas : ∀ {pss : List (List Piece)} {lss : List (List Lexeme)},
    List.Forall₂ (Reads Stop) pss lss → Reads Stop (Piece.commas pss) (Lexeme.commas lss)
  | _, _, .nil => .nil
  | _, _, .cons h .nil => h
  | _, _, .cons h (.cons h' rest) =>
    h.followed (.opened rfl (reads_commas (.cons h' rest))) (trails_raw rfl rfl)

/-- A clause has the tokens of its keyword and of what follows it, or none. -/
theorem reads_clause {leftOut : Bool} {keyword : String} {ts : List Token} {c : Char}
    {rest : List Char} {ps : List Piece} {ls : List Lexeme} (htext : keyword.toList = c :: rest)
    (hc : isStop c = true) (hkeyword : tokensLeaving Mode.isSettled keyword = some ts)
    (h : Reads Stop ps ls) :
    Reads Stop (clause leftOut keyword ps) (if leftOut then [] else fixed ts ++ ls) ∧
      Trails (clause leftOut keyword ps) := by
  cases leftOut with
  | true => exact ⟨.nil, trails_nil⟩
  | false => exact ⟨.opened hkeyword h, trails_raw htext hc⟩

theorem reads_function (f : Function) {ps : List Piece} {ls : List Lexeme} (h : Reads Stop ps ls) :
    Reads Stop (.raw f.text :: .raw "(" :: ps) (fixed [.name f.text, .symbol "("] ++ ls) := by
  have hname : Scans (· = '(') f.text.toList [.name f.text] := by
    cases f <;> exact @Scans.intro _ _ [] [.name _] (.word _) rfl rfl (by rintro c rfl; rfl)
  have hopened : Reads Stop (.raw "(" :: ps) (fixed [.symbol "("] ++ ls) := .opened rfl h
  refine (Reads.raw hname).append hopened ?_ ?_
  · intro bound c hc
    cases hc
    rfl
  · intro bound hnil
    cases hnil

theorem reads_tagged (tag : String) {ps : List Piece} {ls : List Lexeme} (h : Reads Stop ps ls) :
    Reads Stop (.comment ("<" ++ tag ++ ">") :: .raw " " :: ps ++
      [.raw " ", .comment ("</" ++ tag ++ ">")]) (.tag tag :: ls ++ [.tag tag]) := by
  have hbody : Reads Stop (.raw " " :: ps) (fixed [] ++ ls) := .opened rfl h
  have hfront : Reads Stop (.comment ("<" ++ tag ++ ">") :: .raw " " :: ps) (.tag tag :: ls) :=
    (reads_openingTag tag).append hbody (fun _ _ _ => trivial) fun _ _ _ _ => trivial
  have hclose : Reads Stop [.comment ("</" ++ tag ++ ">")] [.tag tag] :=
    (reads_closingTag tag).mono fun _ _ => trivial
  have hback : Reads Stop [.raw " ", .comment ("</" ++ tag ++ ">")] (fixed [] ++ [.tag tag]) :=
    .opened rfl hclose
  exact hfront.followed hback (trails_raw rfl rfl)

mutual

/-- The text of an expression has its tokens. -/
theorem Expr.reads : ∀ e : Expr, Reads Stop e.pieces e.lexemes
  | .and l r => ((Reads.opened rfl l.reads).joined r.reads rfl rfl).shut
  | .or l r => ((Reads.opened rfl l.reads).joined r.reads rfl rfl).shut
  | .not e => (Reads.opened rfl e.reads).shut
  | .compare op l r => by
    have hop : ∃ rest, op.text.toList = ' ' :: rest ∧
        tokensLeaving Mode.isSettled op.text = some [.symbol op.symbol] := by
      cases op <;> exact ⟨_, rfl, rfl⟩
    obtain ⟨rest, htext, htokens⟩ := hop
    exact ((Reads.opened rfl l.reads).joined r.reads htokens htext).shut
  | .isIn e options => by
    have hlist : Reads Stop (.raw "(" :: Piece.commas (listPieces options))
        (fixed [.symbol "("] ++ Lexeme.commas (listLexemes options)) :=
      .opened rfl (reads_commas (listReads options))
    have hclose : Reads Stop [.raw ")", .raw ")"] (fixed [.symbol ")"] ++ fixed [.symbol ")"]) :=
      .opened rfl (.closed rfl)
    exact ((Reads.opened rfl e.reads).joined hlist rfl rfl).followed hclose (trails_raw rfl rfl)
  | .isNull e => by
    have hnull : Reads Stop ([.raw nullText] ++ [.raw ")"])
        (fixed [.keyword "IS", .keyword "NULL"] ++ fixed [.symbol ")"]) :=
      Reads.shut (.closed rfl)
    exact (Reads.opened rfl e.reads).followed hnull (trails_raw rfl rfl)
  | .call f args => (reads_function f (reads_commas (listReads args))).shut
  | .existsRow s => (Reads.opened rfl s.reads).shut
  | .object entries => (Reads.opened rfl (reads_commas (entryReads entries))).shut
  | .column c => c.reads
  | .value v => v.reads
  | .count c => (Reads.opened rfl c.reads).shut
  | .subselect s => (Reads.opened rfl s.reads).shut
  | .tagged tag e => reads_tagged tag e.reads

theorem listReads : ∀ es : List Expr, List.Forall₂ (Reads Stop) (listPieces es) (listLexemes es)
  | [] => .nil
  | e :: es => .cons e.reads (listReads es)

theorem entryReads : ∀ entries : List (String × Expr),
    List.Forall₂ (Reads Stop) (entryPieces entries) (entryLexemes entries)
  | [] => .nil
  | (key, e) :: entries => by
    have hkey : Reads Stop [.literal key] (fixed [.literal key]) :=
      (Reads.literal key).mono (Stop.cases (by decide) (by decide) (by decide))
    exact .cons (hkey.followed (.opened rfl e.reads) (trails_raw rfl rfl)) (entryReads entries)

theorem itemReads : ∀ items : List (String × Expr),
    List.Forall₂ (Reads Stop) (itemPieces items) (itemLexemes items)
  | [] => .nil
  | (_, e) :: items => .cons (reads_named e.reads) (itemReads items)

theorem orderReads : ∀ order : List (Expr × Direction),
    List.Forall₂ (Reads Stop) (orderPieces order) (orderLexemes order)
  | [] => .nil
  | (e, direction) :: order => by
    have hword : Reads Stop [.raw (directionText direction)]
        (fixed [.keyword (directionWord direction)]) := by
      cases direction <;> exact .closed rfl
    have htrails : Trails [.raw (directionText direction)] := by
      cases direction <;> exact trails_raw rfl rfl
    exact .cons (e.reads.followed hword htrails) (orderReads order)

theorem SelectList.reads : ∀ l : SelectList, Reads Stop l.pieces l.lexemes
  | .items items => reads_commas (itemReads items)
  | .star | .one => .closed rfl

theorem Source.reads : ∀ s : Source, Reads Stop s.pieces s.lexemes
  | .table table a =>
    (Reads.opened rfl (table.reads.mono Stop.ne_quote)).joined (a.reads.mono Stop.ne_quote) rfl rfl
  | .select s a => by
    have hselect : Reads Stop (.raw " FROM " :: .raw "(" :: s.pieces)
        (fixed [.keyword "FROM"] ++ (fixed [.symbol "("] ++ s.lexemes)) :=
      .opened rfl (.opened rfl s.reads)
    have halias : Reads Stop (.raw ")" :: .raw " AS " :: a.pieces)
        (fixed [.symbol ")"] ++ (fixed [.keyword "AS"] ++ a.lexemes)) :=
      .opened rfl (.opened rfl (a.reads.mono Stop.ne_quote))
    exact hselect.followed halias (trails_raw rfl rfl)

theorem optionalSourceReads : ∀ s : Option Source,
    Reads Stop (optionalSourcePieces s) (optionalSourceLexemes s) ∧ Trails (optionalSourcePieces s)
  | none => ⟨.nil, trails_nil⟩
  | some (.table table a) => ⟨Source.reads (.table table a), trails_raw rfl rfl⟩
  | some (.select s a) => ⟨Source.reads (.select s a), trails_raw rfl rfl⟩

/-- The text of a select has its tokens. -/
theorem Select.reads : ∀ s : Select, Reads Stop s.pieces s.lexemes
  | ⟨list, source, joins, condition, orderBy, limit⟩ => by
    have hjoins : Trails (joins.flatMap CrossJoin.pieces) := by
      cases joins with
      | nil => exact trails_nil
      | cons => exact trails_raw rfl rfl
    have hcondition : Reads Stop (conditionPieces condition)
        (if condition.isTrue then [] else fixed [.keyword "WHERE"] ++ condition.lexemes) ∧
        Trails (conditionPieces condition) :=
      reads_clause rfl rfl rfl condition.reads
    have horder : Reads Stop (orderByPieces orderBy)
        (if orderBy.isEmpty then []
          else fixed [.keyword "ORDER", .keyword "BY"] ++ Lexeme.commas (orderLexemes orderBy)) ∧
        Trails (orderByPieces orderBy) :=
      reads_clause rfl rfl rfl (reads_commas (orderReads orderBy))
    have hsource := optionalSourceReads source
    exact ((((Reads.opened rfl list.reads).followed hsource.1 hsource.2).followed
      (reads_joins joins) hjoins).followed hcondition.1 hcondition.2).followed horder.1 horder.2
      |>.followed limit.reads limit.trails

end

theorem Reads.statement {ps : List Piece} {ls : List Lexeme} (h : Reads Stop ps ls)
    (hquiet : Lexeme.Quiet ls) :
    lex (Statement.ofPieces ps).text.toList = some (Lexeme.tokens 0 ls) ∧
      (Statement.ofPieces ps).params = Lexeme.values ls := by
  refine ⟨?_, h.params⟩
  rw [Statement.ofPieces, String.toList_ofList]
  exact (h.scans hquiet 0).lex_eq

/-- **The text of a statement has the tokens of the statement**, for selects, for explanations of
selects and for expressions: all of it is read, each name and key is one token that holds it, and
values are parameters only. -/
theorem lex_statement_eq_tokens :
    (∀ s : Select, Lexeme.Quiet s.lexemes →
      lex s.statement.text.toList = some (Lexeme.tokens 0 s.lexemes) ∧
      s.statement.params = Lexeme.values s.lexemes ∧
      lex s.explainStatement.text.toList = some
        ([.keyword "EXPLAIN", .keyword "QUERY", .keyword "PLAN"] ++ Lexeme.tokens 0 s.lexemes) ∧
      s.explainStatement.params = Lexeme.values s.lexemes) ∧
    ∀ e : Expr, Lexeme.Quiet e.lexemes →
      lex (Statement.ofPieces e.pieces).text.toList = some (Lexeme.tokens 0 e.lexemes) ∧
      (Statement.ofPieces e.pieces).params = Lexeme.values e.lexemes := by
  refine ⟨fun s hquiet => ?_, fun e hquiet => e.reads.statement hquiet⟩
  have hexplain : Reads Stop s.explainPieces
      (fixed [.keyword "EXPLAIN", .keyword "QUERY", .keyword "PLAN"] ++ s.lexemes) :=
    .opened rfl s.reads
  have hquiet' : Lexeme.Quiet
      (fixed [.keyword "EXPLAIN", .keyword "QUERY", .keyword "PLAN"] ++ s.lexemes) := by
    intro t ht
    exact hquiet t (by simpa [fixed] using ht)
  obtain ⟨hlex, hparams⟩ := s.reads.statement hquiet
  obtain ⟨hlex', hparams'⟩ := hexplain.statement hquiet'
  exact ⟨hlex, hparams, hlex', hparams'⟩

/-- A select in which the table, a column, a key and a value hold quotes and comments, and a tag ends
in a star. -/
def hostile : Select :=
  let table : TableAlias := { name := "T\"; --", index := 0 }
  let column (name : String) : Expr := .column (.stored (.aliased table) name)
  { list := .items [("data", .tagged "query*" (.object [("it's /*", column "a\"\"b")]))]
    source := some (.table (.table "T\"; DROP TABLE \"T") table)
    condition := .compare .equal (column "*/") (.value (.string "' OR '1'='1"))
    limit := { offset := some 20 } }

/-- The tokens of `hostile` are those of any select of its form. -/
theorem lex_hostile_eq_tokens :
    Lexeme.Quiet hostile.lexemes ∧ hostile.statement.params = [.string "' OR '1'='1"] ∧
      lex hostile.statement.text.toList = some
        [.keyword "SELECT", .name "JSON_OBJECT", .symbol "(", .literal "it's /*", .symbol ",",
          .identifier "T\"; --_0", .symbol ".", .identifier "a\"\"b", .symbol ")", .keyword "AS",
          .identifier "data", .keyword "FROM", .identifier "T\"; DROP TABLE \"T", .keyword "AS",
          .identifier "T\"; --_0", .keyword "WHERE", .symbol "(", .identifier "T\"; --_0",
          .symbol ".", .identifier "*/", .symbol "=", .param 1, .symbol ")", .keyword "LIMIT",
          .symbol "-", .integer 1, .keyword "OFFSET", .integer 20] := by
  have hquiet : Lexeme.Quiet hostile.lexemes := by
    intro t ht
    have htag : t = "query*" := by
      simpa [hostile, Select.lexemes, SelectList.lexemes, itemLexemes, Lexeme.commas, Expr.lexemes,
        entryLexemes, ColumnRef.lexemes, TableRef.lexemes, TableAlias.lexemes, Value.lexemes,
        optionalSourceLexemes, Source.lexemes, Limit.lexemes, Expr.isTrue, fixed] using ht
    subst htag
    decide
  obtain ⟨hlex, hparams, -, -⟩ := lex_statement_eq_tokens.1 hostile hquiet
  exact ⟨hquiet, hparams, hlex⟩

end DataAgent.Sql
