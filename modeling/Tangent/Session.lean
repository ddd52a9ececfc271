import Tangent.Expr.Printer
import Tangent.Expr.Reader
import Tangent.Expr.Simplification
import Tangent.Settings

/-!
# Sessions

A session is an accepted formula with all that follows from it: its tree, its derivative as the
rules give it, the simplified derivative, and the text of that. A formula is accepted when it is
neither empty nor too long, is well formed, and has no other variable than the one it is about.
-/

namespace Tangent

/-- An accepted formula and its derivatives. -/
structure Session (ν : Type) where
  /-- The formula as entered, without blanks around it. -/
  text : String
  formula : Expr ν
  derivative : Expr ν
  simplified : Expr ν
  derivativeText : String
  /-- The variable of the formula. -/
  variableName : String

namespace Session

variable {ν : Type} [Number ν]

/-- The formula text without blanks around it, unless it is missing, empty or too long. -/
def accepted (settings : Settings ν) (entered : Option String) : Outcome ν String :=
  match entered with
  | none => .error .emptyInput
  | some entered =>
    let text := Text.strip entered
    if text.isEmpty then .error .emptyInput
    else if settings.maxInputLength < text.length then
      .error (.inputTooLong settings.maxInputLength)
    else .ok text

/-- Refuses variables other than the one a formula is about; the first of them in the order of
their characters is reported. -/
def checkVariables (variableName : String) (formula : Expr ν) : Outcome ν Unit :=
  match formula.sortedNames.find? (· ≠ variableName) with
  | some other => .error (.unevaluated (.unboundVariable other))
  | none => .ok ()

/-- The variable of a formula: the one asked for, or the one that is set where none or an empty
name is asked for. -/
def chosenVariable (settings : Settings ν) : Option String → String
  | some name => if name.isEmpty then settings.variableName else name
  | none => settings.variableName

/-- The session of an entered formula. -/
def build (settings : Settings ν) (entered : Option String) (variableName : Option String) :
    Outcome ν (Session ν) := do
  let variableName := chosenVariable settings variableName
  let text ← accepted settings entered
  let formula ← Expr.read settings.dialect text
  checkVariables variableName formula
  let derivative ← (formula.derivative variableName).mapError .underivable
  let simplified ← (derivative.simplify settings.maxPasses.toNat).mapError .unevaluated
  return ⟨text, formula, derivative, simplified.tree, simplified.tree.text, variableName⟩

/-- The value of the formula at a point. -/
def valueAt (session : Session ν) (point : ν) : Outcome ν ν :=
  (session.formula.evaluate (Bindings.single session.variableName point)).mapError .unevaluated

/-- The value of the simplified derivative at a point. -/
def slopeAt (session : Session ν) (point : ν) : Outcome ν ν :=
  (session.simplified.evaluate (Bindings.single session.variableName point)).mapError
    .unevaluated

end Session

end Tangent
