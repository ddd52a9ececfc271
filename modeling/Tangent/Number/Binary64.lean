import Tangent.Number

/-!
# Machine numbers

Binary64 numbers as the numbers of the library. A finite one is a significand below `2 ^ 53` times
a power of two; reading a quotient and writing a number go through that form in exact arithmetic.
-/

namespace Tangent.Binary64

/-- A power of two. -/
def twoTo (exponent : Nat) : Nat :=
  Nat.pow 2 exponent

/-- The least significand of normal numbers; its bits hold the fraction of every number. -/
def leastNormal : Nat := twoTo 52

/-- The exponent of the last place of subnormal numbers. -/
def leastExponent : Int := -1074

/-- A finite size `significand · 2 ^ exponent`. -/
structure Size where
  significand : Nat
  exponent : Int

/-- The exponent field of a number; all ones for infinite and undefined numbers. -/
def exponentField (value : Float) : Nat :=
  value.toBits.toNat / leastNormal % twoTo 11

/-- The significand and exponent of a finite number. -/
def size (value : Float) : Size :=
  let field := exponentField value
  let fraction := value.toBits.toNat % leastNormal
  if field = 0 then ⟨fraction, leastExponent⟩
  else ⟨leastNormal + fraction, leastExponent + field - 1⟩

/-- Whether the sign bit is set. -/
def signBit (value : Float) : Bool :=
  value.toBits.toNat / twoTo 63 == 1

/-- A power of two as a quotient of whole numbers. -/
def powerOfTwo (exponent : Int) : Nat × Nat :=
  (twoTo exponent.toNat, twoTo (-exponent).toNat)

/-- What a machine number stands for. -/
def extended (value : Float) : Extended :=
  if exponentField value = 2047 then
    if value.toBits.toNat % leastNormal = 0 then .infinite (signBit value) else .undefined
  else
    let ⟨significand, exponent⟩ := size value
    let (up, down) := powerOfTwo exponent
    let numerator : Int := significand * up
    .finite (mkRat (if signBit value then -numerator else numerator) down)

/-- The bits of positive infinity, the first pattern above the finite numbers. -/
def infinityBits : Nat := 0x7FF0000000000000

/-- The machine number nearest to a quotient; a half goes to the even significand. Counting
significands on from the subnormal numbers gives the bits, also where rounding carries into the
next exponent; from the first pattern past the finite ones on the result is infinite. -/
def nearest (numerator denominator : Nat) : Float :=
  if numerator = 0 then 0
  else
    let guess : Int := (Nat.log2 numerator : Int) - Nat.log2 denominator - 53
    let fits (exponent : Int) : Bool :=
      let (up, down) := powerOfTwo exponent
      numerator * down < 2 * leastNormal * (denominator * up)
    let exponent := if fits guess then guess else guess + 1
    let exponent := max leastExponent exponent
    let (up, down) := powerOfTwo exponent
    let significand := Decimal.nearest (numerator * down) (denominator * up)
    let bits := (exponent - leastExponent).toNat * leastNormal + significand
    Float.ofBits (min bits infinityBits).toUInt64

/-- Decimals whose leading digit is at this power of ten or above are infinite. -/
def overflowOrder : Int := 310

/-- Decimals whose leading digit is at this power of ten or below are zero. -/
def underflowOrder : Int := -330

/-- The machine number nearest to a decimal. -/
def ofDecimal (decimal : Decimal) : Float :=
  let order := (Decimal.digitCount decimal.digits : Int) + decimal.exponent
  if decimal.digits = 0 ∨ order ≤ underflowOrder then 0
  else if overflowOrder ≤ order then Float.ofBits infinityBits.toUInt64
  else
    nearest (decimal.digits * Decimal.tenTo decimal.exponent.toNat)
      (Decimal.tenTo (-decimal.exponent).toNat)

/-- The machine number nearest to a quotient of whole numbers. A zero has the sign of the quotient
too. -/
def quotient (numerator denominator : Int) : Float :=
  let size := nearest numerator.natAbs denominator.natAbs
  if (numerator < 0) != (denominator < 0) then -size else size

/-- The reals that round to a finite positive number: half a unit of the last place on each side,
but a quarter below a power of two that has a finer neighbour. The ends belong to it when the
significand is even. -/
def interval (value : Float) : Decimal.Interval :=
  let ⟨significand, exponent⟩ := size value
  let (up, down) := powerOfTwo (exponent - 2)
  let finerBelow := significand = leastNormal ∧ leastExponent < exponent
  let point := 4 * significand
  ⟨(point - if finerBelow then 1 else 2) * up, point * up, (point + 2) * up, down,
    significand % 2 == 0⟩

/-- The shortest decimal that reads back as the size of a finite number. -/
def shortest (value : Float) : Decimal :=
  if (size value).significand = 0 then ⟨0, 0⟩ else (interval value).shortest

/-- The sign of a number: plus one, minus one, or an unsigned zero. -/
def sign (value : Float) : Float :=
  if 0 < value then 1 else if value < 0 then -1 else if value == 0 then 0 else value

/-- The machine's elementary functions. -/
def apply : Elementary → Float → Float
  | .sin => Float.sin
  | .cos => Float.cos
  | .tan => Float.tan
  | .exp => Float.exp
  | .log => Float.log
  | .sqrt => Float.sqrt
  | .abs => Float.abs
  | .sign => sign
  | .asin => Float.asin
  | .acos => Float.acos
  | .atan => Float.atan
  | .sinh => Float.sinh
  | .cosh => Float.cosh
  | .tanh => Float.tanh

instance : Arithmetic Float where
  ofDecimal := ofDecimal
  power := Float.pow
  apply := apply
  isFinite := Float.isFinite

instance : Number Float where
  quotient := quotient
  extended := extended
  isNegative value := signBit value && !value.isNaN
  shortest := shortest
  infinity := Float.ofBits infinityBits.toUInt64
  undefined := 0 / 0

end Tangent.Binary64
