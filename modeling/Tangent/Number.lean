import Tangent.Decimal.Shortest
import Tangent.Decimal.Style
import Tangent.Decimal.Rounded
import Tangent.Decimal.Numeral
import Tangent.Elementary

/-!
# Numbers

What the library needs of the numbers that formulas are written and computed in. `Arithmetic`
holds the operations that evaluation and simplification share, `Scalar` those that place points
and cells, and `Number` adds what reading and writing need. The operations carry no laws, so
machine numbers qualify.
-/

namespace Tangent

/-- The operations of formulas. `==` may identify zeros of different sign and may hold an
undefined number apart from itself. -/
class Arithmetic (ν : Type) extends BEq ν, Neg ν, Add ν, Sub ν, Mul ν, Div ν where
  /-- The number nearest to a decimal. -/
  ofDecimal : Decimal → ν
  power : ν → ν → ν
  apply : Elementary → ν → ν
  isFinite : ν → Bool

/-- What a number stands for: a rational, an infinity, or nothing. -/
inductive Extended where
  | finite (value : Rat)
  | infinite (negative : Bool)
  | undefined
  deriving DecidableEq, Repr

/-- The operations that place points and cells. -/
class Scalar (ν : Type) extends Add ν, Sub ν, Mul ν, Div ν where
  /-- The number nearest to the quotient of two whole numbers, the second of them not zero. -/
  quotient : Int → Int → ν
  /-- What a number stands for. -/
  extended : ν → Extended

/-- Numbers that can also be read and written. -/
class Number (ν : Type) extends Arithmetic ν, Scalar ν where
  /-- Whether a sign is written in front. An undefined number has none: a sign bit that a machine
  keeps beside it would only put one more pair of parentheses around its text. -/
  isNegative : ν → Bool
  /-- The shortest decimal that reads back as the size of a finite number. -/
  shortest : ν → Decimal
  infinity : ν
  undefined : ν

namespace Arithmetic

variable {ν : Type} [Arithmetic ν]

/-- A small whole number, as it occurs in rules. -/
def ofNat (number : Nat) : ν :=
  ofDecimal ⟨number, 0⟩

end Arithmetic

/-- Why a number has no nearest whole number. -/
inductive Unroundable where
  | undefined
  | infinite
  deriving DecidableEq, Repr

namespace Extended

/-- The rational a number stands for. -/
def toRat? : Extended → Except Unroundable Rat
  | finite value => .ok value
  | infinite _ => .error .infinite
  | undefined => .error .undefined

/-- Whether a number stands for a rational. -/
def isFinite : Extended → Bool
  | finite _ => true
  | _ => false

/-- Order of what numbers stand for; nothing is comparable with an undefined number. -/
def lessEqual : Extended → Extended → Bool
  | finite left, finite right => left ≤ right
  | infinite negative, finite _ => negative
  | finite _, infinite negative => !negative
  | infinite left, infinite right => left || !right
  | _, _ => false

end Extended

/-- The whole number nearest to a rational; a half goes to the even neighbour. -/
def roundHalfEven (value : Rat) : Int :=
  signedInt (value.num < 0) (Decimal.nearest value.num.natAbs value.den)

/-- The whole number nearest to a rational on the side of zero. -/
def truncate (value : Rat) : Int :=
  if value.num < 0 then value.ceil else value.floor

/-- Why two whole numbers have no quotient. -/
inductive Indivisible where
  | byZero
  /-- The quotient lies beyond the finite numbers. -/
  | tooLarge
  deriving DecidableEq, Repr

namespace Scalar

variable {ν : Type} [Scalar ν]

/-- The number nearest to a whole number. -/
def ofInt (number : Int) : ν :=
  quotient number 1

/-- The finite number nearest to the quotient of two whole numbers. -/
def divide? (numerator denominator : Int) : Except Indivisible ν :=
  if denominator = 0 then .error .byZero
  else
    let value : ν := quotient numerator denominator
    if (extended value).isFinite then .ok value else .error .tooLarge

/-- `left ≤ right`, false if either is undefined. -/
def lessEqual (left right : ν) : Bool :=
  (extended left).lessEqual (extended right)

/-- The greatest whole number that is not above the number. -/
def floor? (value : ν) : Except Unroundable Int :=
  Rat.floor <$> (extended value).toRat?

/-- The least whole number that is not below the number. -/
def ceil? (value : ν) : Except Unroundable Int :=
  Rat.ceil <$> (extended value).toRat?

/-- The nearest whole number; a half goes to the even neighbour. -/
def round? (value : ν) : Except Unroundable Int :=
  roundHalfEven <$> (extended value).toRat?

/-- The number without the digits behind its point. -/
def truncate? (value : ν) : Except Unroundable Int :=
  truncate <$> (extended value).toRat?

end Scalar

namespace Number

variable {ν : Type} [Number ν]

open Scalar

/-- The number itself where it is finite. -/
def finite? (value : ν) : Option ν :=
  if Arithmetic.isFinite value then some value else none

/-- Whether the number stands for nothing. -/
def isUndefined (value : ν) : Bool :=
  extended value == .undefined

/-- The number an entry stands for. -/
def ofEntry : NumberEntry → ν
  | .finite negative magnitude =>
    let size : ν := Arithmetic.ofDecimal magnitude
    if negative then -size else size
  | .infinite negative => if negative then -infinity else infinity
  | .undefined => undefined

/-- The number a text stands for when it is entered on its own. -/
def read? (text : String) : Option ν :=
  ofEntry <$> NumberEntry.read? text

/-- A sign in front of a text, where the number has one. -/
def signed (value : ν) (size : String) : String :=
  if isNegative value then "-" ++ size else size

/-- Full text of numbers: all digits that tell a number from its neighbours, at least one of them
behind the point, and an exponent below `0.0001` and from ten quadrillions on. -/
def fullStyle : Decimal.Style := ⟨-4, 16, ['.', '0'], 2⟩

/-- Text of literals in formulas: as in full, but whole numbers have no point. -/
def literalStyle : Decimal.Style := ⟨-4, 16, [], 2⟩

/-- Text of values in tables: at most six digits, and an exponent from a million on. -/
def valueStyle : Decimal.Style := ⟨-4, 6, [], 2⟩

/-- How many significant digits a value in a table has. -/
def valueDigits : Nat := 6

/-- A number with all the digits that tell it from its neighbours. -/
def fullText (value : ν) : String :=
  match extended value with
  | .undefined => "nan"
  | .infinite _ => signed value "inf"
  | .finite _ => signed value (String.ofList (Decimal.write fullStyle (shortest value)))

/-- A number as in full, but a whole number without its point and zero without its sign. -/
def plainText (value : ν) : String :=
  match extended value with
  | .undefined => "nan"
  | .infinite _ => signed value "inf"
  | .finite size =>
    let text := String.ofList (Decimal.write literalStyle (shortest value))
    if size = 0 then text else signed value text

/-- A number in a table, with `undefined` where there is none. -/
def valueText : Option ν → String
  | none => "undefined"
  | some value =>
    match extended value with
    | .undefined => "nan"
    | .infinite _ => signed value "inf"
    | .finite size =>
      let rounded := Decimal.significant valueDigits size.num.natAbs size.den
      signed value (String.ofList (Decimal.write valueStyle rounded))

/-- A number with a fixed number of places behind the point. A zero has no sign, while a negative
number that rounds to zero keeps its own. -/
def fixedText (places : Nat) (value : ν) : String :=
  match extended value with
  | .undefined => "NaN"
  | .infinite _ => signed value "Infinity"
  | .finite size =>
    let text := String.ofList (Decimal.fixed places size.num.natAbs size.den)
    if size = 0 then text else signed value text

end Number

end Tangent
