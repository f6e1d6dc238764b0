import DataAgent.Number.Double

/-!
# Number — Decimal

Decimals `± digits * 10 ^ exponent`, and the double nearest to one. All arithmetic is exact: a
decimal is a quotient of two naturals (`Decimal.ratio`), which is divided once and rounded once,
an exact half going to the even neighbour.
-/

namespace DataAgent

/-- The decimal `± digits * 10 ^ exponent`. -/
structure Decimal where
  negative : Bool := false
  digits : Nat
  exponent : Int := 0
  deriving DecidableEq, Repr

/-- `a * b ^ e / c` as a quotient of naturals, whatever the sign of `e`. -/
def scaleRatio (a c b : Nat) (e : Int) : Nat × Nat :=
  if 0 ≤ e then (a * b.pow e.toNat, c) else (a, c * b.pow (-e).toNat)

/-- The natural nearest to `num / den`, a half going to the even one. -/
def roundHalfEven (num den : Nat) : Nat :=
  let q := num / den
  let r := num % den
  if 2 * r < den then q else if den < 2 * r then q + 1 else q + q % 2

namespace Decimal

/-- The magnitude as a quotient. -/
def ratio (x : Decimal) : Nat × Nat := scaleRatio x.digits 1 10 x.exponent

/-- The binary exponent at which `num / den` has a mantissa of fifty-three bits, or the least
one a double has. -/
def binaryExponent (num den : Nat) : Int :=
  let guess : Int := (num.log2 : Int) - den.log2 - 52
  let (n, d) := scaleRatio num den 2 (-guess)
  max (-1074) (if n < Nat.pow 2 52 * d then guess - 1 else guess)

/-- The double nearest to the decimal, or none when it lies beyond the largest. -/
def nearest (x : Decimal) : Option Double :=
  if x.digits = 0 then some (.ofParts x.negative 0 0)
  -- `10 ^ 342` is beyond every double, and `10` is more than `2 ^ 3`
  else if 342 ≤ x.exponent then none
  else if (x.digits.log2 : Int) + 1081 < -3 * x.exponent then some (.ofParts x.negative 0 0)
  else
    let (num, den) := x.ratio
    let e := binaryExponent num den
    let (n, d) := scaleRatio num den 2 (-e)
    let m := roundHalfEven n d
    let (m, e) := if m = Nat.pow 2 53 then (Nat.pow 2 52, e + 1) else (m, e)
    if 971 < e then none else some (.ofParts x.negative m e)

/-- The digits without their last zeros. At most as many are dropped as there are digits. -/
def trimZeros : Nat → Decimal → Decimal
  | 0, x => x
  | n + 1, x =>
    if x.digits ≠ 0 ∧ x.digits % 10 = 0 then
      trimZeros n { x with digits := x.digits / 10, exponent := x.exponent + 1 }
    else x

end Decimal

/-- The double nearest to an integer that is below `2 ^ 1023` in magnitude. -/
def Double.ofInt (n : Int) : Double :=
  (Decimal.nearest { negative := n < 0, digits := n.natAbs }).getD .zero

/-- The magnitude of a finite double as a quotient. -/
def Double.ratio (x : Double) : Nat × Nat := scaleRatio x.mantissa 1 2 x.exponent

/-- The place of the decimal point of `num / den`: the least `p` with `num / den < 10 ^ p`, near
a first guess from the binary lengths. -/
def pointOf (num den : Nat) : Int :=
  let guess : Int := ((num.log2 : Int) - den.log2) * 30103 / 100000 - 1
  let below (p : Int) : Bool :=
    let (n, d) := scaleRatio num den 10 (-p)
    n < d
  ([guess, guess + 1, guess + 2].find? below).getD (guess + 3)

/-- The decimal with `count` significant digits nearest to a finite double, a half going away
from zero. -/
def Double.toSignificant (count : Nat) (x : Double) : Decimal :=
  if x.mantissa = 0 then { negative := x.isNegative, digits := 0 }
  else
    let (num, den) := x.ratio
    let e := pointOf num den - count
    let (n, d) := scaleRatio num den 10 (-e)
    { negative := x.isNegative, digits := (2 * n + d) / (2 * d), exponent := e }

end DataAgent
