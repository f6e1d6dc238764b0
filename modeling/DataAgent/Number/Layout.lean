import DataAgent.Number.Decimal

/-!
# Number — Layout

How a decimal is written: which exponents stand as zeros and a point, and how the others are
marked. A layout is a value, so that a format states its decisions in one place.
-/

namespace DataAgent

/-- The decisions of a written form of decimals. -/
structure DecimalLayout where
  /-- The least power of ten of the first digit that is written without an exponent. -/
  plainFrom : Int
  /-- The greatest such power. -/
  plainUpTo : Int
  /-- The fraction of a whole number, `['.', '0']` or nothing. -/
  wholeTail : List Char
  /-- Between digits and exponent. -/
  mark : Char
  /-- A positive exponent has a sign. -/
  plusSign : Bool
  /-- The fraction of a single digit before an exponent, `['.', '0']` or nothing. -/
  scientificTail : List Char := []
  /-- The least number of digits of an exponent. -/
  exponentWidth : Nat := 1

namespace Decimal

/-- The digits of a natural, most significant first. -/
def digitsOf (n : Nat) : List Char := Nat.toDigits 10 n

/-- The digits without an exponent, the point standing after `point` of them. -/
def writePlain (layout : DecimalLayout) (digits : List Char) (point : Int) : List Char :=
  if point ≤ 0 then '0' :: '.' :: List.replicate (-point).toNat '0' ++ digits
  else if (digits.length : Int) ≤ point then
    digits ++ List.replicate (point - digits.length).toNat '0' ++ layout.wholeTail
  else digits.take point.toNat ++ '.' :: digits.drop point.toNat

/-- One digit, the others after a point, and the exponent. -/
def writeScientific (layout : DecimalLayout) (digits : List Char) (exponent : Int) : List Char :=
  let fraction := if digits.tail.isEmpty then layout.scientificTail else '.' :: digits.tail
  let sign := if exponent < 0 then ['-'] else if layout.plusSign then ['+'] else []
  let power := digitsOf exponent.natAbs
  digits.take 1 ++ fraction ++ layout.mark :: sign ++
    List.replicate (layout.exponentWidth - power.length) '0' ++ power

/-- The decimal as text. -/
def write (layout : DecimalLayout) (x : Decimal) : List Char :=
  let digits := digitsOf x.digits
  let first : Int := digits.length + x.exponent - 1
  let body :=
    if layout.plainFrom ≤ first ∧ first ≤ layout.plainUpTo then writePlain layout digits (first + 1)
    else writeScientific layout digits first
  if x.negative then '-' :: body else body

end Decimal

end DataAgent
