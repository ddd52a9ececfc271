import Tangent.Graph.Curve
import Tangent.Graph.TangentLine

/-!
# Graphs

A curve with its tangents, and the heights the plot of it shows.
-/

namespace Tangent

/-- The curve of a session and its tangents. -/
structure Graph (ν : Type) where
  curve : Curve ν
  tangents : List (TangentLine ν)

namespace Graph

variable {ν : Type} [Number ν]

/-- The graph of a session with tangents at a number of points. -/
def build (settings : Settings ν) (session : Session ν) (count : Int) : Outcome ν (Graph ν) := do
  let grid ← settings.grid
  let curve ← Curve.sample session.formula session.variableName grid
  let tangents ← TangentLine.spread settings session count
  return ⟨curve, tangents⟩

/-- The lesser of two numbers. -/
def lesser (left right : ν) : ν :=
  if Scalar.lessEqual left right then left else right

/-- The greater of two numbers. -/
def greater (left right : ν) : ν :=
  if Scalar.lessEqual right left then left else right

/-- The heights between which a curve is shown: those of its finite samples and a tenth more on
each side, one unit around a curve of a single height, and none if it has no finite sample. -/
def heights? (curve : Curve ν) : Option (ν × ν) :=
  match curve.finiteSamples with
  | [] => none
  | first :: rest =>
    let low := rest.foldl lesser first
    let high := rest.foldl greater first
    let margin : ν :=
      if low == high then Scalar.ofInt 1 else (high - low) * Scalar.quotient 1 10
    some (low - margin, high + margin)

end Graph

end Tangent
