import Tangent.Fault.Basic
import Tangent.Settings

/-!
# Grids

The points a curve is sampled at, spread evenly from one end of its range to the other, and the
whole numbers that tangents are drawn at.
-/

namespace Tangent

variable {ν : Type}

/-- A number of points spread evenly over a range. Each is a multiple of the spacing above the
start, and the last one is the end itself. A spacing too small for the numbers is avoided by
dividing first. -/
def spread [Number ν] (start finish : ν) (count : Nat) : List ν :=
  let width := finish - start
  let gaps : ν := Scalar.ofInt (count - 1)
  let spacing := width / gaps
  let place (index : Nat) : ν :=
    let steps : ν := Scalar.ofInt index
    if count ≤ 1 then steps * width + start
    else if index + 1 = count then finish
    else if spacing == Scalar.ofInt 0 then steps / gaps * width + start
    else steps * spacing + start
  (List.range count).map place

theorem length_spread [Number ν] (start finish : ν) (count : Nat) :
    (spread start finish count).length = count := by
  simp [spread]

/-- The points of a curve from one end of its range to the other, about one step apart. -/
def curveGrid [Number ν] (start finish step : ν) : Outcome ν (List ν) := do
  if Scalar.lessEqual step (Scalar.ofInt 0) || Scalar.lessEqual finish start then
    throw (.invalidGrid start finish step)
  let steps ← (Scalar.round? ((finish - start) / step)).mapError .unroundable
  return spread start finish (steps + 1).toNat

/-- The points of a curve over the range that is set. -/
def Settings.grid [Number ν] (settings : Settings ν) : Outcome ν (List ν) :=
  curveGrid settings.curveStart settings.curveEnd settings.curveStep

/-- The place of a tangent point before rounding, from the number of gaps between the points. -/
def dotPlace [Scalar ν] (start finish : ν) (gaps : Int) (index : Nat) : ν :=
  start + Scalar.ofInt index * ((finish - start) / Scalar.ofInt gaps)

/-- Whole numbers spread evenly over a range; a half is rounded up. -/
def tangentPoints [Scalar ν] (start finish : ν) (count : Int) : Outcome ν (List Int) := do
  if count < 2 then throw (.tooFewPoints count)
  if !(Scalar.extended (Scalar.ofInt (count - 1) : ν)).isFinite then throw .tooManyPoints
  (List.range count.toNat).mapM fun index =>
    (Scalar.floor? (dotPlace start finish (count - 1) index + Scalar.quotient 1 2)).mapError
      .unroundable

end Tangent
