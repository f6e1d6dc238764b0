import DataAgent.Proofs.Sql.Params

/-!
# Proofs — Sql — Writing

Statements under construction. A piece is put after what a statement holds already, and a value is bound
to the next parameter (`Statement.push`); a part of a statement (`Part`) is written by its pieces, one
after the other (`Statement.write`). A statement is what is written into the empty one
(`Statement.ofPieces_eq_write`), so what is proved of writing holds of statements.

Writing only adds to a statement. The parameters it adds are the values of the part, and their numbers
go on from those that were there, as the lexer finds them in the text that was added
(`Statement.writePart_appends`). It finds others too if a tag ends its own comment
(`Statement.writePart_forged`).
-/

namespace DataAgent.Sql

open Lexeme (fixed)

/-! ### Pieces put after one another -/

namespace Statement

/-- The statement that holds nothing. -/
def empty : Statement := { text := "", params := [] }

/-- The statement with one more piece. -/
def push (s : Statement) : Piece → Statement
  | .raw text        => { s with text := s.text ++ text }
  | .comment text    => { s with text := s.text ++ ("/*" ++ text ++ "*/") }
  | .identifier name => { s with text := s.text ++ Piece.quoteIdentifier name }
  | .literal text    => { s with text := s.text ++ Piece.quoteLiteral text }
  | .param value     =>
    { text := s.text ++ ("?" ++ toString (s.params.length + 1)), params := s.params ++ [value] }

/-- The statement with more pieces. -/
def write (s : Statement) (pieces : List Piece) : Statement := pieces.foldl push s

/-- One piece adds its text. -/
theorem toList_text_push (s : Statement) (p : Piece) :
    (s.push p).text.toList = s.text.toList ++ Piece.chars s.params.length [p] := by
  cases p with
  | raw text => simp [push, Piece.chars]
  | comment text => simp [push, Piece.chars]
  | identifier name => simp [push, Piece.chars, Piece.quoteIdentifier]
  | literal text => simp [push, Piece.chars, Piece.quoteLiteral]
  | param value => simp [push, Piece.chars, Nat.toString_eq_repr, Nat.toList_repr]

/-- One piece adds its value, if it has one. -/
theorem params_push (s : Statement) (p : Piece) :
    (s.push p).params = s.params ++ Piece.params [p] := by
  cases p <;> simp [push, Piece.params]

theorem params_write (s : Statement) (ps : List Piece) :
    (s.write ps).params = s.params ++ Piece.params ps := by
  induction ps generalizing s with
  | nil => simp [write, Piece.params]
  | cons p ps ih =>
    have hrest : (s.write (p :: ps)).params = (s.push p).params ++ Piece.params ps := ih (s.push p)
    rw [hrest, params_push, List.append_assoc, ← Piece.params_append, List.singleton_append]

theorem toList_text_write (s : Statement) (ps : List Piece) :
    (s.write ps).text.toList = s.text.toList ++ Piece.chars s.params.length ps := by
  -- the count of parameters moves with the pieces, so it is general in the induction
  induction ps generalizing s with
  | nil => simp [write, Piece.chars]
  | cons p ps ih =>
    have hrest : (s.write (p :: ps)).text.toList =
        (s.push p).text.toList ++ Piece.chars (s.push p).params.length ps := ih (s.push p)
    have hpieces := Piece.chars_append s.params.length [p] ps
    rw [List.singleton_append] at hpieces
    rw [hrest, toList_text_push, params_push, List.length_append, List.append_assoc, hpieces]

theorem text_write (s : Statement) (ps : List Piece) :
    (s.write ps).text = s.text ++ String.ofList (Piece.chars s.params.length ps) := by
  rw [← String.toList_inj, toList_text_write, String.toList_append, String.toList_ofList]

/-- A statement is what is written into the empty one. -/
theorem ofPieces_eq_write (ps : List Piece) : ofPieces ps = empty.write ps := by
  have htext := text_write empty ps
  have hparams := params_write empty ps
  rw [empty, String.empty_append] at htext
  rw [empty, List.nil_append] at hparams
  rw [ofPieces, ← hparams, show String.ofList (Piece.chars 0 ps) = _ from htext.symm]
  rfl

end Statement

/-! ### The numbers of parameters -/

/-- The numbers of the parameters among some tokens. -/
def Token.indices (tokens : List Token) : List Nat :=
  tokens.filterMap fun | .param index => some index | _ => none

/-- The lexeme is no parameter that has a number already. -/
def Lexeme.isPlain : Lexeme → Bool
  | .token (.param _) => false
  | _ => true

/-- Values are numbered one after the other. -/
theorem Lexeme.indices_tokens : ∀ (bound : Nat) (ls : List Lexeme), ls.all isPlain = true →
    Token.indices (tokens bound ls) = List.range' (bound + 1) (values ls).length
  | _, [], _ => rfl
  | bound, .value v :: ls, h => by
    have hrest := indices_tokens (bound + 1) ls h
    rw [tokens, show values (.value v :: ls) = v :: values ls from rfl, List.length_cons,
      List.range'_succ, ← hrest]
    rfl
  | bound, .tag _ :: ls, h => indices_tokens bound ls h
  | bound, .token t :: ls, h => by
    rw [List.all_cons, Bool.and_eq_true] at h
    have hrest := indices_tokens bound ls h.2
    cases t with
    | param n => exact absurd h.1 Bool.false_ne_true
    | _ => exact hrest

section

open Lexeme (isPlain)

theorem Lexeme.plain_commas : ∀ {lss : List (List Lexeme)}, (∀ ls ∈ lss, ls.all isPlain = true) →
    (Lexeme.commas lss).all isPlain = true
  | [], _ => rfl
  | [ls], h => h ls (List.mem_singleton_self ls)
  | ls :: ms :: lss, h => by
    have hrest := plain_commas fun ns hns => h ns (List.mem_cons_of_mem ls hns)
    have hcommas : Lexeme.commas (ls :: ms :: lss) =
        ls ++ (fixed [.symbol ","] ++ Lexeme.commas (ms :: lss)) := rfl
    simp [hcommas, h ls (List.mem_cons_self ..), fixed, isPlain, hrest]

theorem TableRef.plain (t : TableRef) : t.lexemes.all isPlain = true := by
  cases t <;> rfl

theorem ColumnRef.plain (c : ColumnRef) : c.lexemes.all isPlain = true := by
  cases c <;> simp [ColumnRef.lexemes, TableRef.plain, fixed, isPlain]

theorem Value.plain : ∀ v : Value, v.lexemes.all isPlain = true
  | .int _ | .double _ | .string _ | .bool true | .bool false | .null => rfl

theorem Count.plain (c : Count) : c.lexemes.all isPlain = true := by
  cases c <;> simp [Count.lexemes, ColumnRef.plain, fixed, isPlain]

theorem Limit.plain : ∀ l : Limit, l.lexemes.all isPlain = true
  | ⟨none, none⟩ | ⟨none, some _⟩ | ⟨some _, none⟩ | ⟨some _, some _⟩ => rfl

theorem CrossJoin.plain (j : CrossJoin) : j.lexemes.all isPlain = true := by
  simp [CrossJoin.lexemes, TableRef.plain, TableAlias.lexemes, fixed, isPlain]

theorem plain_joins (joins : List CrossJoin) :
    (joins.flatMap CrossJoin.lexemes).all isPlain = true := by
  simp [List.all_flatMap, CrossJoin.plain]

mutual

/-- Only values are parameters of an expression. -/
theorem Expr.plain : ∀ e : Expr, e.lexemes.all isPlain = true
  | .and l r | .or l r | .compare _ l r => by simp [Expr.lexemes, l.plain, r.plain, fixed, isPlain]
  | .not e | .isNull e | .tagged _ e => by simp [Expr.lexemes, e.plain, fixed, isPlain]
  | .isIn e options => by
    simp [Expr.lexemes, e.plain, Lexeme.plain_commas (listPlain options), fixed, isPlain]
  | .call _ args => by simp [Expr.lexemes, Lexeme.plain_commas (listPlain args), fixed, isPlain]
  | .object entries => by
    simp [Expr.lexemes, Lexeme.plain_commas (entryPlain entries), fixed, isPlain]
  | .existsRow s | .subselect s => by simp [Expr.lexemes, s.plain, fixed, isPlain]
  | .column c => c.plain
  | .value v => v.plain
  | .count c => by simp [Expr.lexemes, c.plain, fixed, isPlain]

theorem listPlain : ∀ es : List Expr, ∀ ls ∈ listLexemes es, ls.all isPlain = true
  | [] => by simp [listLexemes]
  | e :: es => List.forall_mem_cons.2 ⟨e.plain, listPlain es⟩

theorem entryPlain : ∀ es : List (String × Expr), ∀ ls ∈ entryLexemes es, ls.all isPlain = true
  | [] => by simp [entryLexemes]
  | (_, e) :: es =>
    List.forall_mem_cons.2 ⟨by simp [e.plain, fixed, isPlain], entryPlain es⟩

theorem itemPlain : ∀ es : List (String × Expr), ∀ ls ∈ itemLexemes es, ls.all isPlain = true
  | [] => by simp [itemLexemes]
  | (_, e) :: es =>
    List.forall_mem_cons.2 ⟨by simp [e.plain, fixed, isPlain], itemPlain es⟩

theorem orderPlain : ∀ es : List (Expr × Direction), ∀ ls ∈ orderLexemes es, ls.all isPlain = true
  | [] => by simp [orderLexemes]
  | (e, _) :: es =>
    List.forall_mem_cons.2 ⟨by simp [e.plain, fixed, isPlain], orderPlain es⟩

theorem SelectList.plain : ∀ l : SelectList, l.lexemes.all isPlain = true
  | .items items => Lexeme.plain_commas (itemPlain items)
  | .star | .one => rfl

theorem Source.plain : ∀ s : Source, s.lexemes.all isPlain = true
  | .table t a => by simp [Source.lexemes, t.plain, TableAlias.lexemes, fixed, isPlain]
  | .select s a => by simp [Source.lexemes, s.plain, TableAlias.lexemes, fixed, isPlain]

theorem optionalSourcePlain : ∀ s : Option Source, (optionalSourceLexemes s).all isPlain = true
  | none => rfl
  | some s => s.plain

/-- Only values are parameters of a select. -/
theorem Select.plain : ∀ s : Select, s.lexemes.all isPlain = true
  | ⟨list, source, joins, condition, orderBy, limit⟩ => by
    have hcondition : (if condition.isTrue then [] else
        fixed [.keyword "WHERE"] ++ condition.lexemes).all isPlain = true := by
      split
      · rfl
      · simp [condition.plain, fixed, isPlain]
    have horder : (if orderBy.isEmpty then [] else fixed [.keyword "ORDER", .keyword "BY"] ++
        Lexeme.commas (orderLexemes orderBy)).all isPlain = true := by
      split
      · rfl
      · simp [Lexeme.plain_commas (orderPlain orderBy), fixed, isPlain]
    rw [Select.lexemes]
    simp only [List.all_append, hcondition, horder, list.plain, optionalSourcePlain source,
      plain_joins joins, limit.plain]
    rfl

end

end

/-! ### Parts of statements -/

/-- What is written as a whole: a statement, a clause of one, an expression, a constant, a name or a
word. -/
inductive Part
  | select (select : Select)
  | explain (select : Select)
  | expr (expr : Expr)
  | list (list : SelectList)
  | source (source : Source)
  | join (join : CrossJoin)
  | condition (condition : Expr)
  | orderBy (orderBy : List (Expr × Direction))
  | orderItem (expr : Expr) (direction : Direction)
  | limit (limit : Limit)
  | value (value : Value)
  | count (count : Count)
  | column (column : ColumnRef)
  | table (table : TableRef)
  | label (label : TableAlias)
  | name (name : String)
  | comparison (op : Comparison)
  | membership
  | nullTest
  | function (function : Function)
  | direction (direction : Direction)

namespace Part

/-- The pieces of a part. -/
def pieces : Part → List Piece
  | .select s            => s.pieces
  | .explain s           => s.explainPieces
  | .expr e              => e.pieces
  | .list l              => l.pieces
  | .source s            => s.pieces
  | .join j              => j.pieces
  | .condition e         => conditionPieces e
  | .orderBy order       => orderByPieces order
  | .orderItem e d       => e.pieces ++ [.raw (directionText d)]
  | .limit l             => l.pieces
  | .value v             => v.pieces
  | .count c             => c.pieces
  | .column c            => c.pieces
  | .table t             => t.pieces
  | .label a             => a.pieces
  | .name n              => [.identifier n]
  | .comparison op       => [.raw op.text]
  | .membership          => [.raw memberText]
  | .nullTest            => [.raw nullText]
  | .function f          => [.raw f.text]
  | .direction d         => [.raw (directionText d)]

/-- The values of a part that are bound to parameters, clause by clause. -/
def params : Part → List Param
  | .select s | .explain s => s.params
  | .expr e | .orderItem e _ => e.params
  | .list l              => l.params
  | .source s            => s.params
  | .condition e         => if e.isTrue then [] else e.params
  | .orderBy order       => orderParams order
  | .value v             => v.params
  | _                    => []

/-- The lexemes of a part. -/
def lexemes : Part → List Lexeme
  | .select s            => s.lexemes
  | .explain s           => fixed [.keyword "EXPLAIN", .keyword "QUERY", .keyword "PLAN"] ++ s.lexemes
  | .expr e              => e.lexemes
  | .list l              => l.lexemes
  | .source s            => s.lexemes
  | .join j              => j.lexemes
  | .condition e         => if e.isTrue then [] else fixed [.keyword "WHERE"] ++ e.lexemes
  | .orderBy order       =>
    if order.isEmpty then []
    else fixed [.keyword "ORDER", .keyword "BY"] ++ Lexeme.commas (orderLexemes order)
  | .orderItem e d       => e.lexemes ++ fixed [.keyword (directionWord d)]
  | .limit l             => l.lexemes
  | .value v             => v.lexemes
  | .count c             => c.lexemes
  | .column c            => c.lexemes
  | .table t             => t.lexemes
  | .label a             => a.lexemes
  | .name n              => fixed [.identifier n]
  | .comparison op       => fixed [.symbol op.symbol]
  | .membership          => fixed [.keyword "IN"]
  | .nullTest            => fixed [.keyword "IS", .keyword "NULL"]
  | .function f          => fixed [.name f.text]
  | .direction d         => fixed [.keyword (directionWord d)]

/-- The text of a part has its tokens. -/
theorem reads (p : Part) : Reads Stop p.pieces p.lexemes := by
  cases p with
  | select s => exact s.reads
  | explain s => exact .opened rfl s.reads
  | expr e => exact e.reads
  | list l => exact l.reads
  | source s => exact s.reads
  | join j => exact j.reads
  | condition e => exact (reads_clause rfl rfl rfl e.reads).1
  | orderBy order => exact (reads_clause rfl rfl rfl (reads_commas (orderReads order))).1
  | orderItem e d =>
    -- an order of one item
    cases orderReads [(e, d)] with
    | cons h _ => exact h
  | limit l => exact l.reads
  | value v => exact v.reads
  | count c => exact c.reads
  | column c => exact c.reads
  | table t => exact t.reads.mono Stop.ne_quote
  | label a => exact a.reads.mono Stop.ne_quote
  | name n => exact (Reads.identifier n).mono Stop.ne_quote
  | comparison op => cases op <;> exact .closed rfl
  | membership => exact .closed rfl
  | nullTest => exact .closed rfl
  | function f => cases f <;> exact .closed rfl
  | direction d => cases d <;> exact .closed rfl

/-- Only values are parameters of a part. -/
theorem plain (p : Part) : p.lexemes.all Lexeme.isPlain = true := by
  cases p with
  | select s => exact s.plain
  | explain s => exact s.plain
  | expr e => exact e.plain
  | list l => exact l.plain
  | source s => exact s.plain
  | join j => exact j.plain
  | condition e =>
    simp only [lexemes]
    split
    · rfl
    · exact e.plain
  | orderBy order =>
    simp only [lexemes]
    split
    · rfl
    · exact Lexeme.plain_commas (orderPlain order)
  | orderItem e d => exact orderPlain [(e, d)] _ (List.mem_singleton_self _)
  | limit l => exact l.plain
  | value v => exact v.plain
  | count c => exact c.plain
  | column c => exact c.plain
  | table t => exact t.plain
  | label _ | name _ | comparison _ | membership | nullTest | function _ | direction _ => rfl

/-- The parameters of the text of a part are its values. -/
theorem params_pieces (p : Part) : Piece.params p.pieces = p.params := by
  cases p with
  | select s => exact s.params_pieces
  | explain s => exact s.params_pieces
  | expr e => exact e.params_pieces
  | list l => exact l.params_pieces
  | source s => exact s.params_pieces
  | join j =>
    have hjoin := params_joins [j]
    rwa [List.flatMap_singleton] at hjoin
  | condition e =>
    simp only [pieces, params, conditionPieces, clause]
    split
    · rfl
    · exact e.params_pieces
  | orderBy order =>
    refine params_clause ((Piece.params_commas _).trans (params_orderPieces order)) fun h => ?_
    rw [List.isEmpty_iff.1 h]
    rfl
  | orderItem e d =>
    show Piece.params (e.pieces ++ [.raw (directionText d)]) = e.params
    rw [Piece.params_append, e.params_pieces]
    exact List.append_nil _
  | limit l => exact l.params_pieces
  | value v => exact v.params_pieces
  | count c => exact c.params_pieces
  | column c => exact c.params_pieces
  | table t => exact t.params_pieces
  | label _ | name _ | comparison _ | membership | nullTest | function _ | direction _ => rfl

end Part

/-! ### What writing adds -/

namespace Statement

/-- The statement with a part written after what it holds. -/
def writePart (s : Statement) (p : Part) : Statement := s.write p.pieces

/-- The text that a part adds has its parameters numbered on from those that were there. -/
theorem indices_chars (p : Part) (h : Lexeme.Quiet p.lexemes) (bound : Nat) :
    ∃ tokens, lex (Piece.chars bound p.pieces) = some tokens ∧
      Token.indices tokens = List.range' (bound + 1) p.params.length := by
  refine ⟨_, (p.reads.scans h bound).lex_eq, ?_⟩
  rw [Lexeme.indices_tokens bound p.lexemes p.plain, ← p.reads.params, p.params_pieces]

/-- **Writing adds to a statement, and numbers what it binds.** Whatever a statement holds, its text and
parameters stay in front when a part is written into it. The parameters added are the values of the
part, clause by clause. The parameters in the text added have the numbers after those that were there,
in order, if no tag of the part ends a comment. The statement of a select is that select written into
nothing, and that of its explanation is the same after a few words. -/
theorem writePart_appends :
    (∀ (s : Statement) (p : Part), ∃ added : String,
      (s.writePart p).text = s.text ++ added ∧ (s.writePart p).params = s.params ++ p.params ∧
      (Lexeme.Quiet p.lexemes → ∃ tokens, lex added.toList = some tokens ∧
        Token.indices tokens = List.range' (s.params.length + 1) p.params.length)) ∧
    ∀ select : Select,
      select.statement = empty.writePart (.select select) ∧
      select.explainStatement = empty.writePart (.explain select) ∧
      select.explainStatement.text = "EXPLAIN QUERY PLAN " ++ select.statement.text ∧
      select.explainStatement.params = select.statement.params := by
  refine ⟨fun s p => ⟨String.ofList (Piece.chars s.params.length p.pieces), ?_, ?_, ?_⟩,
    fun select => ⟨?_, ?_, ?_, rfl⟩⟩
  · exact text_write s p.pieces
  · rw [writePart, params_write, p.params_pieces]
  · intro hquiet
    rw [String.toList_ofList]
    exact indices_chars p hquiet s.params.length
  · exact ofPieces_eq_write select.pieces
  · exact ofPieces_eq_write select.explainPieces
  · rw [← String.toList_inj, String.toList_append]
    simp [Select.explainStatement, Select.statement, ofPieces, Select.explainPieces, Piece.chars]

/-- A statement that binds a value already, and a condition on a column with a mark in its name. -/
theorem writePart_marked :
    let s : Statement := { text := "SELECT ?1", params := [.int 5] }
    let column : Expr := .column (.stored (.table "?8") "?7")
    let p : Part := .condition (.isIn column
      [.tagged "?6" (.value (.string "?5")), .value .null, .value (.int 3)])
    Lexeme.Quiet p.lexemes ∧ (s.writePart p).params = [.int 5, .string "?5", .int 3] ∧
      ∃ added tokens, (s.writePart p).text = s.text ++ added ∧ lex added.toList = some tokens ∧
        Token.indices tokens = [2, 3] := by
  intro s column p
  have hquiet : Lexeme.Quiet p.lexemes := by
    intro t ht
    have htag : t = "?6" := by
      simpa [p, column, Part.lexemes, Expr.isTrue, Expr.lexemes, listLexemes, Lexeme.commas,
        ColumnRef.lexemes, TableRef.lexemes, Value.lexemes, fixed] using ht
    subst htag
    decide
  obtain ⟨added, htext, hparams, hindices⟩ := writePart_appends.1 s p
  obtain ⟨tokens, hlex, hrange⟩ := hindices hquiet
  exact ⟨hquiet, hparams, added, tokens, htext, hlex, hrange⟩

/-- A tag that ends its own comment is read on as part of the statement, in which it forges a
parameter. -/
theorem writePart_forged :
    let p : Part := .expr (.tagged "*/ ?7 /*" .always)
    (empty.writePart p).text = "/*<*/ ?7 /*>*/ TRUE /*</*/ ?7 /*>*/" ∧
      (empty.writePart p).params = [] ∧ p.params = [] ∧
      lex (empty.writePart p).text.toList = some [.param 7, .name "TRUE", .param 7] ∧
      Token.indices [.param 7, .name "TRUE", .param 7] ≠ List.range' 1 p.params.length := by
  refine ⟨by rfl, by rfl, by rfl, by rfl, by decide⟩

end Statement

end DataAgent.Sql
