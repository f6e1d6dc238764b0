import DataAgent.Number.Decimal

/-!
# Number — Numeral

The number that a text starts with: blanks, a sign, digits with or without a point, and an
exponent. A text that goes on after it, other than with blanks, is not a number itself but has
that number where one is needed.
-/

namespace DataAgent

/-- A number read from the start of a text. -/
structure Numeral where
  value : Decimal
  /-- It has neither a point nor an exponent. -/
  whole : Bool
  /-- Only blanks follow it. -/
  complete : Bool
  deriving DecidableEq, Repr

namespace Numeral

/-- The blanks around numbers: space, tabs, line ends and form feed. -/
def isSpace (c : Char) : Bool := c = ' ' || (9 ≤ c.toNat && c.toNat ≤ 13)

/-- A sign, if there is one. -/
def sign : List Char → Bool × List Char
  | '-' :: rest => (true, rest)
  | '+' :: rest => (false, rest)
  | rest        => (false, rest)

/-- The natural of decimal digits. -/
def natural (digits : List Char) : Nat := digits.foldl (fun n c => 10 * n + (c.toNat - 48)) 0

/-- The digits after a point, if there is a point. -/
def fraction : List Char → Option (List Char) × List Char
  | '.' :: rest => (some (rest.takeWhile Char.isDigit), rest.dropWhile Char.isDigit)
  | rest        => (none, rest)

/-- An exponent with at least one digit, if there is one. -/
def exponent (text : List Char) : Option Int × List Char :=
  match text with
  | c :: rest =>
    let (negative, rest) := sign rest
    let digits := rest.takeWhile Char.isDigit
    if (c = 'e' || c = 'E') && !digits.isEmpty then
      let n : Int := natural digits
      (some (if negative then -n else n), rest.dropWhile Char.isDigit)
    else (none, text)
  | [] => (none, text)

/-- The number at the start of a text. -/
def read (text : List Char) : Option Numeral :=
  let (negative, text) := sign (text.dropWhile isSpace)
  let ones := text.takeWhile Char.isDigit
  let (fraction, text) := fraction (text.dropWhile Char.isDigit)
  let digits := ones ++ fraction.getD []
  if digits.isEmpty then none
  else
    let (exponent, text) := exponent text
    some {
      value := { negative, digits := natural digits,
                 exponent := exponent.getD 0 - (fraction.getD []).length }
      whole := fraction.isNone && exponent.isNone
      complete := text.all isSpace }

/-- The value as an integer, for a whole number. -/
def toInt (n : Numeral) : Int := if n.value.negative then -n.value.digits else n.value.digits

/-- The nearest double; infinite beyond the largest. -/
def toDouble (n : Numeral) : Double := n.value.nearest.getD (.infinity n.value.negative)

end Numeral

end DataAgent
