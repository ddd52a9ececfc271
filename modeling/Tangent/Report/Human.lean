import Tangent.Graph.TangentLine
import Tangent.Report.Document

/-!
# Reports for people

The lines in which a structured answer is shown to people, and the choice between these and JSON.
-/

namespace Tangent

/-- How answers are printed. An unknown format is printed as for people. -/
inductive OutputFormat where
  | human | json | unknown
  deriving DecidableEq, Repr

/-- The format of a name. -/
def OutputFormat.ofName : String → OutputFormat
  | "human" => human
  | "json" => json
  | _ => unknown

namespace Document

variable {ν : Type} [Number ν]

/-- A number, or nothing, in a table. -/
def tableText (value : Document ν) : Except DisplayFault String := do
  match value, ← value.number? with
  | null, _ => return Number.valueText (none : Option ν)
  | _, some amount => return Number.valueText (some amount)
  | _, none => throw (.withoutDigits value.shape)

/-- A number with a fixed number of places. -/
def placesText (places : Nat) (value : Document ν) : Except DisplayFault String := do
  match ← value.number? with
  | some amount => return Number.fixedText places amount
  | none => throw (.withoutPlaces value.shape)

/-- The number of a field in a table. -/
def fieldValue (document : Document ν) (name : String) : Except DisplayFault String :=
  ((document.field? name).getD null).tableText

/-- A field in running text. -/
def fieldText (document : Document ν) (name : String) : String :=
  runningText (document.field? name)

/-- A tangent record as a line of a table. -/
def tangentRecordLine (tangent : Document ν) : Except DisplayFault String := do
  let dot ← (← tangent.entry "dot").placesText TangentLine.dotPlaces
  let value ← tangent.fieldValue "value"
  let label ← tangent.entry "label"
  return TangentLine.rowText dot value (runningText (some label))

/-- A failure in words, with its place if it has one. -/
def failureLine (document : Document ν) : String :=
  match document.field? "position" with
  | none | some null => "Error: " ++ document.fieldText "error"
  | some position =>
    "Error: " ++ document.fieldText "error" ++ " (at position " ++ runningText (some position) ++
      ")"

/-- The lines of an answer of a type. -/
def answerLines (document : Document ν) :
    (type : String) → Except DisplayFault (List String)
  | "validation" => return ["Valid formula: f(x) = " ++ document.fieldText "formula"]
  | "value" => do
    let point ← document.fieldValue "x"
    let height ← document.fieldValue "value"
    let slope ← document.fieldValue "derivative_value"
    return ["f(" ++ point ++ ") = " ++ height, "f'(" ++ point ++ ") = " ++ slope]
  | "derivative" =>
    return ["f(x) = " ++ document.fieldText "formula",
      "f'(x) = " ++ document.fieldText "derivative"]
  | "tangents" => do
    let tangents ← ((document.field? "tangents").getD (list [])).contents
    let lines ← tangents.mapM tangentRecordLine
    return ("Current function: f(x) = " ++ document.fieldText "formula") ::
      ("Derivative: f'(x) = " ++ document.fieldText "derivative") :: lines
  | "plot" => return ["Plot saved to: " ++ document.fieldText "file"]
  | _ => return [document.fieldText "result"]

/-- The lines in which a record is shown. One without a type holds a value. -/
def recordLines (document : Document ν) : Except DisplayFault (List String) :=
  if ((document.field? "ok").map isAffirmative).getD false then
    match document.field? "type" with
    | none => document.answerLines "value"
    | some (text type) => document.answerLines type
    | some _ => document.answerLines ""
  else .ok [document.failureLine]

/-- The lines in which an answer is shown. -/
def humanLines : Document ν → Except DisplayFault (List String)
  | record fields => (record fields).recordLines
  | value => .error (.withoutFields value.shape)

/-- An answer as it is printed. -/
def printed (format : OutputFormat) (document : Document ν) : Except DisplayFault (List String) :=
  match format with
  | .json => .ok [document.json]
  | _ => document.humanLines

end Document

end Tangent
