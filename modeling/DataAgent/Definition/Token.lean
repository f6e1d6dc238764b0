/-!
# Definition — Token

The tokens of stored statements: words, bare or quoted, numbers, texts and symbols, without the
blanks and comments between them.
-/

namespace DataAgent.Definition

/-- A token. -/
inductive Token
  | word (text : String) (quoted : Bool)
  | number (text : String)
  | text (value : String)
  /-- A text in one of the forms that a letter introduces. -/
  | literal
  | symbol (text : String)
  deriving DecidableEq, Repr

namespace Token

/-- The token is a bare word that is this keyword, in any case. -/
def isKeyword (keyword : String) : Token → Bool
  | .word s false => s.toUpper == keyword
  | _             => false

/-- A bare word may start with the character: an ASCII letter, an underscore, or a character
from `DEL` up to the end of the basic plane. -/
def startsWord (c : Char) : Bool := c.isAlpha || c = '_' || (0x7F ≤ c.toNat && c.toNat ≤ 0xFFFF)

/-- A bare word may go on with the character. -/
def continuesWord (c : Char) : Bool := startsWord c || c.isDigit

/-- Blanks between tokens. -/
def isSpace (c : Char) : Bool := c = ' ' || (9 ≤ c.toNat && c.toNat ≤ 13)

/-- A text up to its closing quote, which stands for itself when it is doubled, and what
follows. -/
def untilQuote (close : Char) : List Char → Option (List Char × List Char)
  | [] => none
  | [c] => if c = close then some ([], []) else none
  | c :: d :: rest =>
    if c ≠ close then (untilQuote close (d :: rest)).map fun (s, rest) => (c :: s, rest)
    else if d = close then (untilQuote close rest).map fun (s, rest) => (c :: s, rest)
    else some ([], d :: rest)

/-- What follows a comment in which `level + 1` comments are open. -/
def afterComment : Nat → Char → List Char → Option (List Char)
  | _, _, [] => none
  | level, last, c :: rest =>
    if last = '/' && c = '*' then afterComment (level + 1) c rest
    else if last = '*' && c = '/' then
      match level with
      | 0         => some rest
      | level + 1 => afterComment level c rest
    else afterComment level c rest

/-- The exponent of a number, if one with a digit stands here, and what follows. -/
def exponent (text : List Char) : List Char × List Char :=
  match text with
  | e :: rest =>
    let (sign, rest) := match rest with
      | '+' :: rest => (['+'], rest)
      | '-' :: rest => (['-'], rest)
      | rest        => ([], rest)
    let digits := rest.takeWhile Char.isDigit
    if (e = 'e' || e = 'E') && !digits.isEmpty then
      (e :: sign ++ digits, rest.dropWhile Char.isDigit)
    else ([], text)
  | [] => ([], [])

/-- A number, or a point, and what follows. -/
def numberAt (text : List Char) : Token × List Char :=
  let ones := text.takeWhile Char.isDigit
  match ones, text.dropWhile Char.isDigit with
  | ['0'], 'x' :: rest =>
    (.literal, rest.dropWhile fun c => c.isDigit || ('a' ≤ c.toLower && c.toLower ≤ 'f'))
  | ones, rest =>
    let (point, rest) := match rest with
      | '.' :: rest => (['.'], rest)
      | rest        => ([], rest)
    let digits := ones ++ point ++ rest.takeWhile Char.isDigit
    let rest := rest.dropWhile Char.isDigit
    if digits = ['.'] then (.symbol ".", rest)
    else
      let (power, rest) := exponent rest
      let rest := match rest with
        | 'L' :: rest => rest
        | rest        => rest
      (.number (String.ofList (digits ++ power)), rest)

/-- The symbols of more than one character, longer ones first. -/
def longSymbols : List String :=
  ["<=>", "->>", "||/", "<=", "<>", "<<", ">=", ">>", "!=", "!!", "==", "=>", "->", "||", "|/", "::",
    ":=", "&&", "<@", "@>"]

/-- A symbol, and what follows. -/
def symbolAt (c : Char) (rest : List Char) : Token × List Char :=
  match longSymbols.find? fun s => s.toList.isPrefixOf (c :: rest) with
  | some s => (.symbol s, (c :: rest).drop s.length)
  | none   => (.symbol c.toString, rest)

/-- A bare word, and what follows. -/
def wordAt (text : List Char) : Token × List Char :=
  (.word (String.ofList (text.takeWhile continuesWord)) false, text.dropWhile continuesWord)

/-- The closing quote of a quoted word, by the opening one. -/
def closingQuote : Char → Option Char
  | '"' => some '"'
  | '[' => some ']'
  | c   => if c.toNat = 0x60 then some c else none

/-- A letter introduces a text in one of the forms, here those that are literals. -/
def introduces (c : Char) : Bool := c = 'n' || c = 'N' || c = 'x' || c = 'X'

/-- The first token, if there is one, and what follows; none if a quote or a comment stays
open. -/
def first : List Char → Option (Option Token × List Char)
  | [] => some (none, [])
  | '-' :: '-' :: rest => some (none, (rest.dropWhile (· ≠ '\n')).drop 1)
  | '/' :: '*' :: rest => (afterComment 0 ' ' rest).map fun rest => (none, rest)
  | '\'' :: rest =>
    (untilQuote '\'' rest).map fun (s, rest) => (some (.text (String.ofList s)), rest)
  | c :: rest =>
    match closingQuote c, rest with
    | some close, rest =>
      (untilQuote close rest).map fun (s, rest) => (some (.word (String.ofList s) true), rest)
    | none, '\'' :: rest' =>
      if introduces c then (untilQuote '\'' rest').map fun (_, rest) => (some .literal, rest)
      else if c = 'e' || c = 'E' then
        (untilQuote '\'' rest').map fun (_, rest) => (some (.symbol "E"), rest)
      else some (plain c rest)
    | none, rest => some (plain c rest)
where
  /-- A token that no quote or comment starts. -/
  plain (c : Char) (rest : List Char) : Option Token × List Char :=
    if isSpace c then (none, rest)
    else if startsWord c then (some (wordAt (c :: rest)).1, (wordAt (c :: rest)).2)
    else if c.isDigit || c = '.' then
      (some (numberAt (c :: rest)).1, (numberAt (c :: rest)).2)
    else (some (symbolAt c rest).1, (symbolAt c rest).2)

/-- The tokens of a text; every step takes at least one of the `fuel` characters. -/
def lexWith : Nat → List Char → Option (List Token)
  | _, [] => some []
  | 0, _ => none
  | fuel + 1, input => do
    let (token, rest) ← first input
    let tokens ← lexWith fuel rest
    return token.toList ++ tokens

/-- The tokens of a text; none if a quote or a comment stays open. -/
def lex (text : String) : Option (List Token) := lexWith text.length text.toList

end Token

end DataAgent.Definition
