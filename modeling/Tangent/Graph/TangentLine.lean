import Tangent.Graph.Grid
import Tangent.Session

/-!
# Tangent lines

The straight line that touches a curve at a point, with its label and its samples over a grid.
-/

namespace Tangent

/-- The tangent to a curve at the point `dot`: the line `slope · x + intercept`. -/
structure TangentLine (ν : Type) where
  dot : ν
  /-- The value of the formula at the point. -/
  value : ν
  slope : ν
  intercept : ν
  label : String
  /-- The line over a grid, with gaps where it is not finite. -/
  samples : List (Option ν)

namespace TangentLine

variable {ν : Type} [Number ν]

/-- The most places behind the point that a number can have. -/
def mostPlaces : Nat := Nat.pow 2 31 - 1

/-- Why a finite number cannot have a number of places, if it cannot. -/
def unplaceable? (places : Int) : Option Unplaceable :=
  if places < 0 then some .negative
  else if greatestIndex < places then some .uncountable
  else if mostPlaces < places then some .tooMany
  else none

/-- Numbers can have no place and up to the most places. -/
theorem unplaceable?_eq_none_iff {places : Int} :
    unplaceable? places = none ↔ 0 ≤ places ∧ places ≤ mostPlaces := by
  simp only [unplaceable?, greatestIndex, mostPlaces, Nat.reducePow, Nat.pow_eq]
  grind

/-- A number in a label, with a number of places behind the point. What is not finite has no
places. -/
def numberText (places : Int) (value : ν) : Outcome ν String :=
  match Number.finite? value, unplaceable? places with
  | some _, some reason => .error (.unplaceable reason)
  | _, _ => .ok (Number.fixedText places.toNat value)

/-- The equation of a line, with a fixed number of places. -/
def labelText (places : Int) (slope intercept : ν) : Outcome ν String := do
  let slope ← numberText places slope
  let intercept ← numberText places intercept
  return "y = " ++ slope ++ "x + " ++ intercept

/-- The line `slope · x + intercept` at a point. -/
def linear (slope intercept point : ν) : ν :=
  slope * point + intercept

/-- A tangent line at a point. -/
def heightAt (line : TangentLine ν) (point : ν) : ν :=
  linear line.slope line.intercept point

/-- Places behind the point of a tangent point in a table. -/
def dotPlaces : Nat := 2

/-- A tangent as a row of a table, from its point, the value there and its label in words. -/
def rowText (dot value label : String) : String :=
  "  x = " ++ dot ++ ": f = " ++ value ++ ", " ++ label

/-- A tangent as a row of a table. -/
def row (line : TangentLine ν) : String :=
  rowText (Number.fixedText dotPlaces line.dot) (Number.valueText (some line.value)) line.label

/-- The tangent to the curve of a session at a point, sampled over a grid. -/
def touching (settings : Settings ν) (session : Session ν) (grid : List ν) (dot : ν) :
    Outcome ν (TangentLine ν) := do
  let value ← session.valueAt dot
  let slope ← session.slopeAt dot
  let intercept := value - slope * dot
  let label ← labelText settings.labelPlaces slope intercept
  return ⟨dot, value, slope, intercept, label,
    grid.map fun point => Number.finite? (linear slope intercept point)⟩

/-- The tangents at a number of points spread over the range that is set. -/
def spread (settings : Settings ν) (session : Session ν) (count : Int) :
    Outcome ν (List (TangentLine ν)) := do
  let grid ← settings.grid
  let dots ← tangentPoints settings.dotStart settings.dotEnd count
  dots.mapM fun dot => touching settings session grid (Scalar.ofInt dot)

end TangentLine

end Tangent
