import DataAgent.Number.Shortest
import DataAgent.Number.Layout

/-!
# Json — Value

JSON documents. Objects keep their members in the order in which the keys first appeared
(`Members.put`). A number is an integer or a double.
-/

namespace DataAgent

/-- Keys with their values, in order. -/
abbrev Members (α : Type) := List (String × α)

namespace Members

variable {α : Type}

/-- The value of a key: a key that is there keeps its place, a new one comes last. -/
def put (members : Members α) (key : String) (value : α) : Members α :=
  match members with
  | [] => [(key, value)]
  | (k, v) :: rest => if k = key then (k, value) :: rest else (k, v) :: put rest key value

/-- The members put one after the other. -/
def ofList (entries : List (String × α)) : Members α :=
  entries.foldl (fun members (key, value) => members.put key value) []

/-- The value of a key. -/
def get? (members : Members α) (key : String) : Option α :=
  (members.find? fun (k, _) => k = key).map Prod.snd

end Members

/-- A JSON number. -/
inductive Number
  | int (value : Int)
  | double (value : Double)
  deriving DecidableEq, Repr

/-- A JSON document. -/
inductive Json
  | null
  | bool (value : Bool)
  | num (value : Number)
  | str (value : String)
  | arr (items : List Json)
  | obj (members : List (String × Json))
  deriving Repr, Inhabited

namespace Json

/-- Doubles are plain from `0.00001` up to sixteen digits, always have a fraction or an
exponent, and a positive exponent has its sign. -/
def doubles : DecimalLayout :=
  { plainFrom := -5, plainUpTo := 15, wholeTail := ['.', '0'], mark := 'e', plusSign := true }

end Json

/-- A double as JSON writes it. An infinite one, which no document holds, is written as a number
that is out of range. -/
def Double.chars (x : Double) : List Char :=
  if x.isFinite then x.shortest.write Json.doubles
  else if x.isNegative then ['-', '9', 'e', '+', '9', '9', '9'] else ['9', 'e', '+', '9', '9', '9']

/-- An integer in decimal. -/
def intChars (n : Int) : List Char :=
  if n < 0 then '-' :: Decimal.digitsOf n.natAbs else Decimal.digitsOf n.natAbs

/-- A number as JSON writes it. -/
def Number.chars : Number → List Char
  | .int n    => intChars n
  | .double x => x.chars

namespace Json

/-- A character inside a quoted string: quotes, backslashes and controls are escaped. -/
def escape (c : Char) : List Char :=
  if c = '"' then ['\\', '"']
  else if c = '\\' then ['\\', '\\']
  else if c = '\x08' then ['\\', 'b']
  else if c = '\x0c' then ['\\', 'f']
  else if c = '\n' then ['\\', 'n']
  else if c = '\r' then ['\\', 'r']
  else if c = '\t' then ['\\', 't']
  else if c.toNat < 0x20 then
    ['\\', 'u', '0', '0', Nat.digitChar (c.toNat / 16), Nat.digitChar (c.toNat % 16)]
  else [c]

/-- A quoted string. -/
def quote (s : String) : List Char := '"' :: s.toList.flatMap escape ++ ['"']

mutual

/-- The compact text of a document: no blanks, members in order. -/
def chars : Json → List Char
  | .null => ['n', 'u', 'l', 'l']
  | .bool true => ['t', 'r', 'u', 'e']
  | .bool false => ['f', 'a', 'l', 's', 'e']
  | .num n => n.chars
  | .str s => quote s
  | .arr [] => ['[', ']']
  | .arr (item :: rest) => '[' :: item.chars ++ moreItems rest
  | .obj [] => ['\x7b', '\x7d']
  | .obj ((key, value) :: rest) => '\x7b' :: quote key ++ ':' :: value.chars ++ moreMembers rest

/-- The items after the first, and the closing bracket. -/
def moreItems : List Json → List Char
  | [] => [']']
  | item :: rest => ',' :: item.chars ++ moreItems rest

/-- The members after the first, and the closing brace. -/
def moreMembers : List (String × Json) → List Char
  | [] => ['\x7d']
  | (key, value) :: rest => ',' :: quote key ++ ':' :: value.chars ++ moreMembers rest

end

/-- The compact text of a document. -/
def print (j : Json) : String := String.ofList j.chars

end Json

end DataAgent
