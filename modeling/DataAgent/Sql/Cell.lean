import DataAgent.Json.Value
import DataAgent.Number.Numeral
import DataAgent.Sql.Expr

/-!
# Sql — Cell

What a table stores, and how values meet: the affinity of a column converts what is stored in it
and what is compared with it, numbers compare exactly, and a comparison with null is unknown.
-/

namespace DataAgent.Sql

/-- A stored value. -/
inductive Cell
  | null
  | int (value : Int)
  | real (value : Double)
  | text (value : String)
  deriving DecidableEq, Repr

/-- The kind of values a column prefers. Expressions that are not columns have none. -/
inductive Affinity
  | unset
  | blob
  | text
  | numeric
  | integer
  | real
  deriving DecidableEq, Repr

/-- The integer is one of sixty-four bits with a sign. -/
def fitsWord (n : Int) : Bool := -Int.pow 2 63 ≤ n && n < Int.pow 2 63

/-- Reals have up to fifteen digits, always with a fraction, and an exponent of at least two
digits below `0.0001` and from `10 ^ 15` on. -/
def reals : DecimalLayout :=
  { plainFrom := -4, plainUpTo := 14, wholeTail := ['.', '0'], mark := 'e', plusSign := true
    scientificTail := ['.', '0'], exponentWidth := 2 }

/-- A real to fifteen digits. -/
def realDigits (x : Double) : Decimal :=
  let d := (x.toSignificant 15).trimZeros 15
  { d with negative := d.negative && d.digits != 0 }

namespace Cell

/-- The constant as a cell. -/
def ofValue : Value → Cell
  | .null     => .null
  | .bool b   => .int (if b then 1 else 0)
  | .int n    => if fitsWord n then .int n else .real (.ofInt n)
  | .double x => .real x
  | .string s => .text s

/-- A computed double as a cell; what is not a number is null. -/
def ofDouble (x : Double) : Cell := if x.isNaN then .null else .real x

/-- A truth value as a cell. -/
def ofTruth : Option Bool → Cell
  | none   => .null
  | some b => .int (if b then 1 else 0)

/-- The number a text starts with as a double, zero if it starts with none. -/
def leadingDouble (s : String) : Double := ((Numeral.read s.toList).map Numeral.toDouble).getD .zero

/-- The truth of a cell: a number is true unless it is zero. -/
def truth : Cell → Option Bool
  | .null   => none
  | .int n  => some (n != 0)
  | .real x => some (x.units != 0)
  | .text s => some ((leadingDouble s).units != 0)

/-- The text of a number; other cells as they are. -/
def toText : Cell → Cell
  | .int n  => .text (String.ofList (intChars n))
  | .real x => .text (String.ofList ((realDigits x).write reals))
  | c       => c

/-- The number that a text is, if it is one; other cells as they are. -/
def toNumber : Cell → Cell
  | .text s =>
    match Numeral.read s.toList with
    | some n =>
      if !n.complete then .text s
      else if n.whole && fitsWord n.toInt then .int n.toInt
      else .real n.toDouble
    | none => .text s
  | c => c

/-- A whole real as an integer; other cells as they are. -/
def toWhole : Cell → Cell
  | .real x =>
    if x.isWhole && decide (-Int.pow 2 63 < x.toInt ∧ x.toInt < Int.pow 2 63 - 1) then .int x.toInt
    else .real x
  | c => c

/-- An integer as a real; other cells as they are. -/
def toReal : Cell → Cell
  | .int n => .real (.ofInt n)
  | c      => c

/-- Null comes first, then numbers by value, then texts by their characters. -/
def compare : Cell → Cell → Ordering
  | .null,   .null   => .eq
  | .null,   _       => .lt
  | _,       .null   => .gt
  | .int m,  .int n  => Ord.compare m n
  | .int m,  .real y => Ord.compare (m * Double.one) y.units
  | .real x, .int n  => Ord.compare x.units (n * Double.one)
  | .real x, .real y => Ord.compare x.units y.units
  | .text s, .text t => Ord.compare s t
  | .text _, _       => .gt
  | _,       .text _ => .lt

end Cell

namespace Affinity

/-- A part of the name, in capitals, without regard to case. -/
def mentions (declared : String) (part : List Char) : Bool :=
  let rec go : List Char → Bool
    | [] => part.isEmpty
    | c :: rest => part.isPrefixOf (c :: rest) || go rest
  go (declared.toList.map Char.toUpper)

/-- The affinity that a declared type gives to a column. -/
def ofDeclared (declared : String) : Affinity :=
  let has (part : String) : Bool := mentions declared part.toList
  if has "INT" then .integer
  else if has "CHAR" || has "CLOB" || has "TEXT" then .text
  else if has "BLOB" || declared.isEmpty then .blob
  else if has "REAL" || has "FLOA" || has "DOUB" then .real
  else .numeric

/-- The affinity is for numbers. -/
def isNumeric : Affinity → Bool
  | .numeric | .integer | .real => true
  | _ => false

/-- What a column of the affinity holds when the cell is stored in it. -/
def store : Affinity → Cell → Cell
  | .unset,   c => c
  | .blob,    c => c
  | .text,    c => c.toText
  | .numeric, c => c.toNumber.toWhole
  | .integer, c => c.toNumber.toWhole
  | .real,    c => c.toNumber.toWhole.toReal

/-- The affinity under which two values are compared. -/
def common (a b : Affinity) : Affinity :=
  if a = .unset then b
  else if b = .unset then a
  else if a.isNumeric || b.isNumeric then .numeric
  else .blob

/-- The cells as they are compared under an affinity. -/
def meet (a : Affinity) (left right : Cell) : Cell × Cell :=
  if a.isNumeric then (left.toNumber, right.toNumber)
  else match a, left, right with
    | .text, .text s, c => (.text s, c.toText)
    | .text, c, .text s => (c.toText, .text s)
    | _,     c, d       => (c, d)

end Affinity

/-- The comparison holds of cells that are so ordered. -/
def Comparison.holds : Comparison → Ordering → Bool
  | .equal,          o => o == .eq
  | .greater,        o => o == .gt
  | .greaterOrEqual, o => o != .lt
  | .less,           o => o == .lt
  | .lessOrEqual,    o => o != .gt

/-- A comparison of two cells, each with the affinity of the column it is from; with null it is
unknown. -/
def Comparison.apply (op : Comparison) (a b : Affinity) (left right : Cell) : Option Bool :=
  if left = .null ∨ right = .null then none
  else
    let (l, r) := (a.common b).meet left right
    some (op.holds (l.compare r))

/-! ### Logic with unknowns -/

/-- Both hold. -/
def bothHold : Option Bool → Option Bool → Option Bool
  | some false, _          => some false
  | _,          some false => some false
  | some true,  some true  => some true
  | _,          _          => none

/-- One of the two holds. -/
def eitherHolds : Option Bool → Option Bool → Option Bool
  | some true,  _          => some true
  | _,          some true  => some true
  | some false, some false => some false
  | _,          _          => none

end DataAgent.Sql
