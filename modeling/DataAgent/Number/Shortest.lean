import DataAgent.Number.Decimal

/-!
# Number — Shortest

The decimal with the fewest digits that reads back as a given double. The reals that round to a
double form an interval around it, whose ends belong to it exactly when the mantissa is even. For
one digit, two digits and so on, the double's two neighbours on the grid of such decimals are
tried; the first grid with a hit wins, and of two hits the nearer, an exact half going to the
even one.
-/

namespace DataAgent

/-- The reals that round to a double, as `low / den` to `high / den` around `value / den`. -/
structure RoundingInterval where
  low : Nat
  value : Nat
  high : Nat
  den : Nat
  closed : Bool

/-- The interval of a finite double, in quarters of its last bit. Below a power of two the gap
to the next double is half as wide. -/
def Double.interval (x : Double) : RoundingInterval :=
  let m := x.mantissa
  let narrow := m = Nat.pow 2 52 ∧ 1 < x.exponentBits
  let quarters (n : Nat) := (scaleRatio n 4 2 x.exponent).1
  { low := quarters (4 * m - if narrow then 1 else 2)
    value := quarters (4 * m)
    high := quarters (4 * m + 2)
    den := (scaleRatio 1 4 2 x.exponent).2
    closed := m % 2 = 0 }

/-- The quotient `num / den` lies in the interval. -/
def RoundingInterval.contains (i : RoundingInterval) (num den : Nat) : Bool :=
  let l := compare (i.low * den) (num * i.den)
  let h := compare (num * i.den) (i.high * den)
  (l == .lt || (i.closed && l == .eq)) && (h == .lt || (i.closed && h == .eq))

/-- The multiple of `10 ^ e` nearest to the value among its two neighbours in the interval. -/
def RoundingInterval.onGrid (i : RoundingInterval) (e : Int) : Option Nat :=
  let (n, d) := scaleRatio i.value i.den 10 (-e)
  let inside (k : Nat) : Bool :=
    let (a, b) := scaleRatio k 1 10 e
    i.contains a b
  let floor := n / d
  match inside floor, inside (floor + 1) with
  | true, true => some (roundHalfEven n d)
  | true, false => some floor
  | false, true => some (floor + 1)
  | false, false => none

/-- The shortest decimal that reads back as a finite double, nearest to it. Seventeen digits
always suffice. -/
def Double.shortest (x : Double) : Decimal :=
  if x.mantissa = 0 then { negative := x.isNegative, digits := 0 }
  else
    let i := x.interval
    let point := pointOf i.value i.den
    let withDigits (count : Nat) : Option Decimal :=
      (i.onGrid (point - count)).map fun k =>
        if k = Nat.pow 10 count then { negative := x.isNegative, digits := 1, exponent := point }
        else { negative := x.isNegative, digits := k, exponent := point - count }
    ((List.range' 1 17).findSome? withDigits).getD { negative := x.isNegative, digits := 0 }

end DataAgent
