import Tangent.Fault.Basic
import Tangent.Settings

/-!
# Layouts

Where the cells of a plot lie. Cells fill rows from left to right and from top to bottom; their
sides are given as fractions of the figure, from the left and from the bottom, with some space left
free around each. A grid without columns has no layout, and neither have cells without a row.
-/

namespace Tangent

/-- A cell of the plot. -/
structure Cell (ν : Type) where
  /-- The place in reading order. -/
  index : Nat
  row : Int
  column : Int
  left : ν
  right : ν
  bottom : ν
  top : ν

namespace Cell

variable {ν : Type} [Scalar ν]

/-- How wide a cell is. -/
def width (cell : Cell ν) : ν := cell.right - cell.left

/-- How high a cell is. -/
def height (cell : Cell ν) : ν := cell.top - cell.bottom

/-- The cell at a place in reading order, in a grid of the given size. -/
def place (rows columns : Int) (padding : ν) (index : Nat) : Except Indivisible (Cell ν) := do
  let row := (index : Int).fdiv columns
  let column := (index : Int).fmod columns
  let left ← Scalar.divide? column columns
  let right ← Scalar.divide? (column + 1) columns
  let below ← Scalar.divide? (row + 1) rows
  let above ← Scalar.divide? row rows
  return {
    index, row, column
    left := left + padding
    right := right - padding
    bottom := Scalar.ofInt 1 - below + padding
    top := Scalar.ofInt 1 - above - padding }

end Cell

/-- The cells of a plot and the size of the figure in dots. -/
structure Layout (ν : Type) where
  rows : Int
  columns : Int
  cells : List (Cell ν)
  width : Int
  height : Int

namespace Layout

variable {ν : Type}

/-- The layout of a number of cells. There are as many rows as the cells need; without cells the
count still settles the height of the figure. -/
def arrange [Scalar ν] (settings : Settings ν) (count : Int) : Outcome ν (Layout ν) := do
  let columns := settings.gridColumns
  let needed : ν ← (Scalar.divide? count columns).mapError .indivisible
  let rows ← (Scalar.ceil? needed).mapError .unroundable
  let cells ← ((List.range count.toNat).mapM
    (Cell.place rows columns settings.cellPadding)).mapError .indivisible
  return {
    rows, columns, cells
    width := settings.figureWidth
    height := settings.rowHeight * rows }

/-- The resolution asked for, or the one that is set where none or zero is asked for. -/
def chosenResolution (settings : Settings ν) : Option Rat → Rat
  | some resolution => if resolution = 0 then settings.resolution else resolution
  | none => settings.resolution

/-- A number of dots in inches. -/
def inchesOf [Scalar ν] (resolution : Rat) (dots : Int) : Outcome ν ν :=
  (Scalar.divide? (dots * resolution.den) resolution.num).mapError .indivisible

/-- The width and height of the figure in inches. -/
def inches [Scalar ν] (resolution : Rat) (layout : Layout ν) : Outcome ν (ν × ν) := do
  let width ← inchesOf resolution layout.width
  let height ← inchesOf resolution layout.height
  return (width, height)

/-- The height of the two titles of a cell, in units of its own height. -/
def titleOffset [Scalar ν] : ν := Scalar.quotient 28 25

/-- The height of the lower one of the two titles. -/
def labelOffset [Scalar ν] : ν := Scalar.quotient 21 20

end Layout

end Tangent
