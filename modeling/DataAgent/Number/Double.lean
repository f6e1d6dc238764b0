/-!
# Number — Double

Doubles as their sixty-four bits. A finite double is a whole number of units, a unit being the
least positive double, so order between doubles and integers is order of integers (`Double.units`).
-/

namespace DataAgent

/-- A double, given by its bits. -/
structure Double where
  bits : UInt64
  deriving DecidableEq, Repr, Inhabited

namespace Double

/-- The sign bit is set. -/
def isNegative (x : Double) : Bool := x.bits >>> 63 == 1

/-- The eleven bits of the exponent. -/
def exponentBits (x : Double) : Nat := ((x.bits >>> 52) &&& 0x7FF).toNat

/-- The fifty-two bits of the fraction. -/
def fractionBits (x : Double) : Nat := (x.bits &&& 0xFFFFFFFFFFFFF).toNat

/-- Neither infinite nor a NaN. -/
def isFinite (x : Double) : Bool := x.exponentBits != 0x7FF

/-- Not a number at all. -/
def isNaN (x : Double) : Bool := x.exponentBits == 0x7FF && x.fractionBits != 0

/-- The magnitude is `mantissa * 2 ^ exponent`. -/
def mantissa (x : Double) : Nat :=
  if x.exponentBits = 0 then x.fractionBits else Nat.pow 2 52 + x.fractionBits

/-- The power of two of the last bit of the mantissa. -/
def exponent (x : Double) : Int := (max x.exponentBits 1 : Nat) - 1075

/-- The double of a sign, a mantissa below `2 ^ 53` and an exponent of at least `-1074`. -/
def ofParts (negative : Bool) (mantissa : Nat) (exponent : Int) : Double :=
  let exponentBits := if mantissa < Nat.pow 2 52 then 0 else (exponent + 1075).toNat
  let sign := if negative then Nat.pow 2 63 else 0
  ⟨(sign + exponentBits * Nat.pow 2 52 + mantissa % Nat.pow 2 52).toUInt64⟩

/-- Zero. -/
def zero : Double := ⟨0⟩

/-- Beyond the largest double, with a sign. -/
def infinity (negative : Bool) : Double :=
  ⟨if negative then 0xFFF0000000000000 else 0x7FF0000000000000⟩

/-- The units in one. -/
def one : Int := Int.pow 2 1074

/-- A finite double in units of the least positive one, exactly. -/
def units (x : Double) : Int :=
  let magnitude : Int := x.mantissa * Int.pow 2 (x.exponent + 1074).toNat
  if x.isNegative then -magnitude else magnitude

/-- The double is a whole number. -/
def isWhole (x : Double) : Bool := x.isFinite && x.units % one == 0

/-- The whole part, for a double that is a whole number. -/
def toInt (x : Double) : Int := x.units / one

/-- The machine's number of these bits. -/
def toFloat (x : Double) : Float := Float.ofBits x.bits

/-- The bits of a machine number. -/
def ofFloat (x : Float) : Double := ⟨x.toBits⟩

/-- The rounded sum. -/
def add (x y : Double) : Double := ofFloat (x.toFloat + y.toFloat)

/-- The rounded difference. -/
def sub (x y : Double) : Double := ofFloat (x.toFloat - y.toFloat)

/-- The rounded quotient. -/
def div (x y : Double) : Double := ofFloat (x.toFloat / y.toFloat)

/-- The double without its sign. -/
def abs (x : Double) : Double := ⟨x.bits &&& 0x7FFFFFFFFFFFFFFF⟩

end Double

end DataAgent
