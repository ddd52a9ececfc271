import Tangent.Fault.Message
import Tangent.Graph.TangentLine
import Tangent.Plot
import Tangent.PointCount
import Tangent.Report.Document

/-!
# Reports

The answers to single requests about a formula: whether it is acceptable, its value and slope at a
point, its derivative, its tangents, and a saved plot. A rejected formula is reported too; only
settings that leave no grid or points, and plots that cannot be drawn, are faults of the request
itself.
-/

namespace Tangent

/-- The answer to a request. -/
inductive Report (ν : Type) where
  | rejected (fault : Fault ν)
  | valid (formula : String)
  | value (formula : String) (point value slope : ν)
  | derivative (formula rate : String)
  | tangents (formula rate : String) (count : Int) (lines : List (TangentLine ν))
  | saved (path : String) (count : Int)
  | unsaved (reason : String)

namespace Report

variable {ν : Type} [Number ν]

/-- Answers with the session of a formula, or reports why there is none. -/
def ofSession (settings : Settings ν) (entered : Option String)
    (answer : Session ν → Outcome ν (Report ν)) : Outcome ν (Report ν) :=
  match Session.build settings entered none with
  | .error fault => if fault.kind?.isSome then .ok (rejected fault) else .error fault
  | .ok session => answer session

/-- Whether a formula is acceptable. -/
def validation (settings : Settings ν) (entered : Option String) : Outcome ν (Report ν) :=
  ofSession settings entered fun session => .ok (valid session.text)

/-- The value and slope of a formula at a point. -/
def evaluation (settings : Settings ν) (entered : Option String) (point : ν) :
    Outcome ν (Report ν) :=
  ofSession settings entered fun session => do
    let height ← session.valueAt point
    let slope ← session.slopeAt point
    return value session.text point height slope

/-- The simplified derivative of a formula. -/
def differentiation (settings : Settings ν) (entered : Option String) : Outcome ν (Report ν) :=
  ofSession settings entered fun session =>
    .ok (derivative session.text session.derivativeText)

/-- The tangents of a formula at a number of points. -/
def tangency (settings : Settings ν) (entered : Option String)
    (request : Option (CountRequest ν)) : Outcome ν (Report ν) :=
  let count := CountRequest.clampedOrDefault settings request
  ofSession settings entered fun session => do
    let lines ← TangentLine.spread settings session count
    return tangents session.text session.derivativeText count lines

/-- The saving of a plot of a formula with a number of tangents. Only what the system refuses after
the plot is drawn is part of the answer. -/
def plotting (settings : Settings ν) (plotter : Plotter ν) (entered : Option String)
    (request : Option (CountRequest ν)) (path : String) : Outcome ν (Report ν) :=
  let count := CountRequest.clampedOrDefault settings request
  ofSession settings entered fun session => do
    let figure ← Plot.drawn settings plotter session count none
    match plotter.save figure path Plot.savedResolution with
    | .ok () => return saved path count
    | .error (.system reason) => return unsaved reason
    | .error obstacle => throw (.unplotted obstacle)

/-- The words in front of the reason why a plot was not saved. -/
def unsavedText (reason : String) : String :=
  "Could not save plot: " ++ reason

/-- A place in the formula, where there is one. -/
def positionField (position : Option Int) : Document ν :=
  match position with
  | some position => .integer position
  | none => .null

/-- A number where it is finite. -/
def finiteField (value : ν) : Document ν :=
  match Number.finite? value with
  | some value => .number value
  | none => .null

/-- A tangent as a record. -/
def lineDocument (line : TangentLine ν) : Document ν :=
  .record [
    ("dot", .number line.dot),
    ("value", finiteField line.value),
    ("slope", finiteField line.slope),
    ("intercept", finiteField line.intercept),
    ("label", .text line.label)]

/-- The fields of an answer that reports a failure. -/
def failureFields (message tag : String) (position : Option Int) :
    List (String × Document ν) :=
  [("ok", .boolean false), ("error", .text message), ("error_type", .text tag),
    ("position", positionField position)]

/-- The fields that contrast what was expected with what was found. -/
def contrastFields : Option (String × String) → List (String × Document ν)
  | some (expected, found) => [("expected", .text expected), ("found", .text found)]
  | none => []

/-- An answer as a record. -/
def document : Report ν → Document ν
  | rejected fault =>
    .record (failureFields fault.message (fault.kind?.map FaultKind.tag |>.getD "")
      fault.position? ++ contrastFields fault.contrast?)
  | valid formula =>
    .record [("ok", .boolean true), ("type", .text "validation"), ("formula", .text formula)]
  | value formula point height slope =>
    .record [("ok", .boolean true), ("type", .text "value"), ("formula", .text formula),
      ("x", .number point), ("value", finiteField height), ("derivative_value", finiteField slope)]
  | derivative formula rate =>
    .record [("ok", .boolean true), ("type", .text "derivative"), ("formula", .text formula),
      ("derivative", .text rate)]
  | tangents formula rate count lines =>
    .record [("ok", .boolean true), ("type", .text "tangents"), ("formula", .text formula),
      ("derivative", .text rate), ("points", .integer count),
      ("tangents", .list (lines.map lineDocument))]
  | saved path count =>
    .record [("ok", .boolean true), ("type", .text "plot"), ("file", .text path),
      ("points", .integer count)]
  | unsaved reason => .record (failureFields (unsavedText reason) "IOError" none)

/-- Whether the request was answered. -/
def isAnswered : Report ν → Bool
  | rejected _ => false
  | unsaved _ => false
  | _ => true

end Report

end Tangent
