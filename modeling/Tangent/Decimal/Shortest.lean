import Tangent.Decimal.Basic

/-!
# The shortest decimal inside an interval

A machine number stands for every real that rounds to it: an interval with the number itself
inside. Its shortest decimal is the one with the fewest digits in that interval, and of those the
one nearest to the number. The search runs over decimal grids, from one digit on; on each grid
only the two neighbours of the number can qualify, because the interval is connected.
-/

namespace Tangent.Decimal

/-- An interval of positive rationals around a point, all three over one denominator. The ends
belong to it when it is closed. -/
structure Interval where
  lower : Nat
  point : Nat
  upper : Nat
  denominator : Nat
  closed : Bool

namespace Interval

/-- The decimal of the grid `10 ^ exponent` that lies in the interval and is nearest to its point;
of two equally near ones the even one. -/
def onGrid (interval : Interval) (exponent : Int) : Option Decimal :=
  let scale := tenTo (-exponent).toNat
  let unit := interval.denominator * tenTo exponent.toNat
  let point := interval.point * scale
  let inside (digits : Nat) : Bool :=
    if interval.closed then
      interval.lower * scale ≤ digits * unit && digits * unit ≤ interval.upper * scale
    else
      interval.lower * scale < digits * unit && digits * unit < interval.upper * scale
  let below := point / unit
  let above := below + 1
  let toBelow := point - below * unit
  let toAbove := above * unit - point
  let belowWins := toBelow < toAbove || (toBelow == toAbove && below % 2 == 0)
  match inside below, inside above with
  | true, true => some ⟨if belowWins then below else above, exponent⟩
  | true, false => some ⟨below, exponent⟩
  | false, true => some ⟨above, exponent⟩
  | false, false => none

/-- Seventeen significant digits tell any two machine numbers apart. -/
def mostDigits : Nat := 17

/-- The decimal with the fewest digits in the interval, nearest to the point among those. -/
def shortest (interval : Interval) : Decimal :=
  let leading := order interval.point interval.denominator
  let onSomeGrid := (List.range mostDigits).findSome? fun count : Nat =>
    interval.onGrid (leading - count)
  (onSomeGrid.getD ⟨interval.point / interval.denominator, 0⟩).reduced

end Interval

end Tangent.Decimal
