import Tangent.Expr.Dialect

/-!
# Settings

Everything about the program that can be set: limits on the input, the dialect of formulas, the
simplifier's limit, the names and places used by default, and the geometry of the plot.
-/

namespace Tangent

/-- The settings of the program. -/
structure Settings (ν : Type) where
  version : String
  /-- The most characters of a formula. -/
  maxInputLength : Int
  dialect : Dialect ν
  /-- The most passes of the simplifier. -/
  maxPasses : Int
  /-- The variable of formulas. -/
  variableName : String
  /-- The formula the console starts with. -/
  defaultFormula : String
  /-- How many accepted formulas are remembered. -/
  historySize : Int
  curveStart : ν
  curveEnd : ν
  curveStep : ν
  /-- The ends of the range the tangent points are spread over. -/
  dotStart : ν
  dotEnd : ν
  minPoints : Int
  maxPoints : Int
  defaultPoints : Int
  gridColumns : Int
  /-- The space left free around a cell, as a fraction of the figure. -/
  cellPadding : ν
  figureWidth : Int
  rowHeight : Int
  /-- Dots per inch. -/
  resolution : Rat
  /-- Places behind the point in tangent labels. -/
  labelPlaces : Int

/-- The settings that hold unless others are given. -/
def Settings.standard {ν : Type} [Number ν] : Settings ν where
  version := "1.0.0"
  maxInputLength := 2000
  dialect := .standard
  maxPasses := 64
  variableName := "x"
  defaultFormula := "x^2"
  historySize := 50
  curveStart := Scalar.ofInt (-11)
  curveEnd := Scalar.ofInt 11
  curveStep := Scalar.quotient 1 10
  dotStart := Scalar.ofInt (-10)
  dotEnd := Scalar.ofInt 10
  minPoints := 2
  maxPoints := 9
  defaultPoints := 3
  gridColumns := 3
  cellPadding := Scalar.quotient 1 20
  figureWidth := 1200
  rowHeight := 450
  resolution := 100
  labelPlaces := 2

end Tangent
