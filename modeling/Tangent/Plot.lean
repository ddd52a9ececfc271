import Tangent.Graph.Basic
import Tangent.Layout

/-!
# Plots

What a plot shows: in each cell the curve, one tangent, a marker at the point where it touches, and
two titles above. A figure only describes this. A plotter draws it and saves it to a file; it is
given from outside, and nothing is known of it but whether it succeeds and, if not, why.
-/

namespace Tangent

/-- The colours of a plot. -/
inductive Colour where
  | black | blue | red
  deriving DecidableEq, Repr

/-- The name of a colour. -/
def Colour.name : Colour → String
  | black => "black"
  | blue => "blue"
  | red => "red"

/-- A text above a cell, placed in units of the cell. -/
structure Title (ν : Type) where
  across : ν
  up : ν
  text : String
  colour : Colour

/-- A line through points, broken where there is no height. -/
structure Stroke (ν : Type) where
  colour : Colour
  points : List ν
  heights : List (Option ν)

/-- What is drawn in one cell. -/
structure Panel (ν : Type) where
  cell : Cell ν
  titles : List (Title ν)
  strokes : List (Stroke ν)
  /-- The range that the horizontal axis shows. -/
  leftEnd : ν
  rightEnd : ν
  /-- The range that the vertical axis shows, where the curve settles it. -/
  heights : Option (ν × ν)

/-- A plot before it is drawn: its size in inches, its dots per inch and its panels. -/
structure Figure (ν : Type) where
  width : ν
  height : ν
  resolution : Rat
  panels : List (Panel ν)

/-- What draws figures, and saves what it has drawn to a path at a resolution. -/
structure Plotter (ν : Type) where
  draw : Figure ν → Except Obstacle Unit
  save : Figure ν → (path : String) → (resolution : Int) → Except Obstacle Unit

namespace Panel

/-- The name of the horizontal axis. -/
def acrossName : String := "x"

/-- The name of the vertical axis. -/
def upName : String := "y"

variable {ν : Type} [Number ν]

/-- The point where a tangent touches the curve, if the curve has a finite height there. -/
def marker (tangent : TangentLine ν) : List (Stroke ν) :=
  match Number.finite? tangent.value with
  | some height => [⟨.red, [tangent.dot], [some height]⟩]
  | none => []

/-- The panel of one tangent. -/
def ofTangent (settings : Settings ν) (curve : Curve ν) (cell : Cell ν) (tangent : TangentLine ν) :
    Outcome ν (Panel ν) := do
  let dot ← TangentLine.numberText settings.labelPlaces tangent.dot
  return {
    cell
    leftEnd := curve.points.headD (Scalar.ofInt 0)
    rightEnd := curve.points.getLastD (Scalar.ofInt 0)
    heights := Graph.heights? curve
    titles := [
      ⟨Scalar.quotient 1 2, Layout.titleOffset, "x = " ++ dot, .black⟩,
      ⟨Scalar.quotient 1 2, Layout.labelOffset, tangent.label, .red⟩]
    strokes :=
      ⟨.blue, curve.points, curve.samples⟩ :: ⟨.red, curve.points, tangent.samples⟩ ::
        marker tangent }

end Panel

namespace Plot

variable {ν : Type} [Number ν]

/-- The figure of a session with a number of tangents, at a resolution. -/
def figure (settings : Settings ν) (session : Session ν) (count : Int) (resolution : Option Rat) :
    Outcome ν (Figure ν) := do
  let graph ← Graph.build settings session count
  let layout ← Layout.arrange settings count
  let resolution := Layout.chosenResolution settings resolution
  let (width, height) ← layout.inches resolution
  let panels ← (layout.cells.zip graph.tangents).mapM fun (cell, tangent) =>
    Panel.ofTangent settings graph.curve cell tangent
  return { width, height, resolution, panels }

/-- Draws the figure of a session. -/
def drawn (settings : Settings ν) (plotter : Plotter ν) (session : Session ν) (count : Int)
    (resolution : Option Rat) : Outcome ν (Figure ν) := do
  let figure ← figure settings session count resolution
  (plotter.draw figure).mapError .unplotted
  return figure

/-- Dots per inch of a file, whatever those of the figure are. -/
def savedResolution : Int := 150

/-- Saves a plot of a session to a path. -/
def save (settings : Settings ν) (plotter : Plotter ν) (session : Session ν) (count : Int)
    (path : String) : Outcome ν Unit := do
  let figure ← drawn settings plotter session count none
  (plotter.save figure path savedResolution).mapError .unplotted

end Plot

/-- Whether a plot may be expected to fail with a fault: over the request, or because the system
refuses to go on. -/
def Fault.isExpected {ν : Type} : Fault ν → Bool
  | unplotted (.system _) => true
  | fault => fault.kind?.isSome

/-- A point of a stroke in a listing. -/
def Stroke.pointText {ν : Type} [Number ν] (point : ν) (height : Option ν) : String :=
  Number.fullText point ++ " " ++ (height.map Number.fullText).getD "-"

/-- A stroke in a listing: its colour and the points it goes through. -/
def Stroke.listing {ν : Type} [Number ν] (stroke : Stroke ν) : List String :=
  stroke.colour.name :: List.zipWith Stroke.pointText stroke.points stroke.heights

/-- A panel in a listing: its titles and its strokes. -/
def Panel.listing {ν : Type} [Number ν] (panel : Panel ν) : List String :=
  panel.titles.map Title.text ++ panel.strokes.flatMap Stroke.listing

end Tangent
