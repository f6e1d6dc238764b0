import DataAgent.Definition.Token

/-!
# Definition — Reader

Readers of token lists. A reader takes tokens from the front or fails; an optional part either is
there, which its first keywords decide, or takes nothing.
-/

namespace DataAgent.Definition

/-- Reads from the front of a list of tokens. -/
abbrev Reader (α : Type) := StateT (List Token) Option α

namespace Reader

variable {α : Type}

/-- The next token, which is taken. -/
def next : Reader Token := fun tokens => match tokens with
  | []              => none
  | token :: tokens => some (token, tokens)

/-- The tokens ahead. -/
def ahead : Reader (List Token) := fun tokens => some (tokens, tokens)

/-- The keywords stand here, one after the other; then they are taken. -/
def keywords (ks : List String) : Reader Bool := fun tokens =>
  if ks.length ≤ tokens.length ∧ (ks.zip tokens).all fun (k, t) => t.isKeyword k then
    some (true, tokens.drop ks.length)
  else some (false, tokens)

/-- The keyword stands here; then it is taken. -/
def keyword (k : String) : Reader Bool := keywords [k]

/-- One of the keywords stands here; then it is taken. -/
def oneOf (ks : List String) : Reader Bool := fun tokens => match tokens with
  | token :: rest => if ks.any fun k => token.isKeyword k then some (true, rest)
    else some (false, tokens)
  | [] => some (false, [])

/-- The symbol stands here; then it is taken. -/
def symbol (s : String) : Reader Bool := fun tokens => match tokens with
  | .symbol t :: rest => if t = s then some (true, rest) else some (false, tokens)
  | _ => some (false, tokens)

/-- What has to be. -/
def must (r : Reader Bool) : Reader Unit := do
  if ← r then return () else failure

/-- The reader's result, or none and nothing taken. -/
def attempt (r : Reader α) : Reader (Option α) := fun tokens => match r tokens with
  | some (a, rest) => some (some a, rest)
  | none           => some (none, tokens)

/-- A name: a word, bare or quoted, or a text. -/
def name : Reader String := do
  match ← next with
  | .word s _ => return s
  | .text s   => return s
  | _         => failure

/-- A name with the names it is qualified by. -/
def pathWith : Nat → Reader (List String)
  | 0 => failure
  | fuel + 1 => do
    let first ← name
    if ← symbol "." then return first :: (← pathWith fuel) else return [first]

/-- A name with the names it is qualified by. -/
def path : Reader (List String) := fun tokens => pathWith tokens.length tokens

/-- One or more, with commas between. -/
def commasWith (r : Reader α) : Nat → Reader (List α)
  | 0 => failure
  | fuel + 1 => do
    let first ← r
    if ← symbol "," then return first :: (← commasWith r fuel) else return [first]

/-- One or more, with commas between. -/
def commas (r : Reader α) : Reader (List α) := fun tokens => commasWith r tokens.length tokens

/-- As many as there are. -/
def manyWith (r : Reader (Option α)) : Nat → Reader (List α)
  | 0 => return []
  | fuel + 1 => do
    match ← r with
    | none   => return []
    | some a => return a :: (← manyWith r fuel)

/-- As many as there are. -/
def many (r : Reader (Option α)) : Reader (List α) := fun tokens =>
  manyWith r (tokens.length + 1) tokens

/-- Something in parentheses. -/
def parens (r : Reader α) : Reader α := do
  must (symbol "(")
  let a ← r
  must (symbol ")")
  return a

/-- A list of names in parentheses. -/
def names : Reader (List String) := parens (commas name)

/-- A list of names in parentheses, if a parenthesis opens. -/
def namesIfAny : Reader (List String) := do
  match ← ahead with
  | .symbol "(" :: _ => names
  | _                => return []

/-- A natural of sixty-four bits. -/
def natural : Reader String := do
  match ← next with
  | .number s =>
    if s.all Char.isDigit && (s.toNat?.getD (Nat.pow 2 64)) < Nat.pow 2 64 then return s else failure
  | _ => failure

/-- A text in quotes. -/
def text : Reader String := do
  match ← next with
  | .text s => return s
  | _       => failure

end Reader

end DataAgent.Definition
