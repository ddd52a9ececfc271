import Tangent.Fault.Basic
import Tangent.Series

/-!
# Curves

The samples of a formula over a grid. A sample that is not a finite number is a gap.
-/

namespace Tangent

/-- A sampled curve: the grid, and a value at each of its points where there is a finite one. -/
structure Curve (ν : Type) where
  points : List ν
  samples : List (Option ν)

namespace Curve

variable {ν : Type} [Number ν]

/-- The finite samples of a curve, from left to right. -/
def finiteSamples (curve : Curve ν) : List ν :=
  curve.samples.filterMap id

/-- Samples a formula over a grid in one walk of its tree. -/
def sample (formula : Expr ν) (variableName : String) (points : List ν) :
    Outcome ν (Curve ν) := do
  let bindings := Bindings.single variableName (Series.many points)
  let values ← (formula.evaluateSeries bindings).mapError .unevaluated
  return ⟨points, (values.entries points.length).map Number.finite?⟩

end Curve

end Tangent
