import Tangent.Expr.Derivative
import Tangent.Expr.Evaluation
import Tangent.Expr.Parser
import Tangent.Log
import Tangent.Report.Document
import Tangent.Token.Lexer

/-!
# Faults

Everything that can stop the program from answering. Most faults are about the formula or the
number of points; those have a kind, and a place in the formula where there is one. The others come
from settings that leave no sensible grid, figure or label, from values of the wrong shape, and from
what stands in the way of a plot outside the program.
-/

namespace Tangent

/-- Why a plot was not drawn or not saved, in the words of who refused it. -/
inductive Obstacle where
  /-- The system refused, as it does where a file cannot be opened or the disk is full. -/
  | system (reason : String)
  /-- The plotter itself did. -/
  | plotter (reason : String)
  deriving DecidableEq, Repr

/-- The greatest number that counts the items of a list or a text. -/
def greatestIndex : Nat := Nat.pow 2 63 - 1

/-- Why a number cannot be written with a number of places. -/
inductive Unplaceable where
  | negative
  /-- More places than a text can have. -/
  | tooMany
  /-- A number of places that is no index. -/
  | uncountable
  deriving DecidableEq, Repr

/-- What the mark `--` was given for on the command line, in place of a value. -/
inductive MissingValue where
  | formula
  | point
  | level
  deriving DecidableEq, Repr

/-- Why there is no answer. -/
inductive Fault (ν : Type) where
  | emptyInput
  | inputTooLong (limit : Int)
  | unrecognized (fault : UnrecognizedCharacter)
  | malformed (fault : ParseFault ν)
  | unevaluated (fault : EvaluationFault)
  | underivable (fault : DerivativeFault)
  | tooFewPoints (count : Int)
  /-- The number of points is beyond the finite numbers. -/
  | tooManyPoints
  | invalidGrid (start finish step : ν)
  | unroundable (reason : Unroundable)
  | indivisible (reason : Indivisible)
  | unplaceable (reason : Unplaceable)
  /-- A history of a negative size. -/
  | negativeHistory
  /-- A plot was not drawn or not saved. -/
  | unplotted (obstacle : Obstacle)
  | undisplayable (reason : DisplayFault)
  | missing (value : MissingValue)
  | unknownLevel (fault : Log.UnknownLevel)
  deriving DecidableEq, Repr

/-- The kinds of faults in a request. -/
inductive FaultKind where
  | unrecognizedCharacter
  | unexpectedToken
  | unknownFunction
  | arityMismatch
  | unbalancedParenthesis
  | tooDeep
  | unboundVariable
  | emptyInput
  | inputTooLong
  | invalidPointCount
  deriving DecidableEq, Repr

/-- The tag of a kind in machine-readable reports. -/
def FaultKind.tag : FaultKind → String
  | unrecognizedCharacter => "UnrecognizedCharacter"
  | unexpectedToken => "UnexpectedToken"
  | unknownFunction => "UnknownFunction"
  | arityMismatch => "ArityMismatch"
  | unbalancedParenthesis => "UnbalancedParenthesis"
  | tooDeep => "TooDeep"
  | unboundVariable => "UnboundVariable"
  | emptyInput => "EmptyInput"
  | inputTooLong => "InputTooLong"
  | invalidPointCount => "InvalidPointCount"

namespace ParseFault

variable {ν : Type}

/-- The kind of a fault. A parenthesis is unbalanced when one closes that was not opened, or when
the input ends before one is closed. -/
def kind? : ParseFault ν → Option FaultKind
  | unexpected (.nesting _) _ _ => some .tooDeep
  | unexpected .finish _ _ => some .unbalancedParenthesis
  | unexpected .closing .endOfInput _ => some .unbalancedParenthesis
  | unexpected .separator .endOfInput _ => some .unbalancedParenthesis
  | unexpected _ _ _ => some .unexpectedToken
  | unknownFunction _ _ => some .unknownFunction
  | wrongArgumentCount _ _ _ => some .arityMismatch
  | unterminated => none

/-- The place of a fault. -/
def position? : ParseFault ν → Option Int
  | unexpected _ _ position => some position
  | unknownFunction _ position => some position
  | wrongArgumentCount _ _ position => some position
  | unterminated => none

end ParseFault

namespace EvaluationFault

/-- The kind of a fault. -/
def kind? : EvaluationFault → Option FaultKind
  | unboundVariable _ => some .unboundVariable
  | unknownFunction _ => some .unknownFunction
  | wrongArgumentCount _ _ => none
  | unequalLengths _ _ => none

/-- The name that a fault is about. -/
def name? : EvaluationFault → Option String
  | unboundVariable name => some name
  | unknownFunction name => some name
  | wrongArgumentCount function _ => some function.name
  | unequalLengths _ _ => none

end EvaluationFault

namespace Fault

variable {ν : Type}

/-- The kind of a fault, where the request is to blame. -/
def kind? : Fault ν → Option FaultKind
  | emptyInput => some .emptyInput
  | inputTooLong _ => some .inputTooLong
  | unrecognized _ => some .unrecognizedCharacter
  | malformed fault => fault.kind?
  | unevaluated fault => fault.kind?
  | tooFewPoints _ => some .invalidPointCount
  | _ => none

/-- The place of a fault in the formula. An empty formula is at fault where it starts. -/
def position? : Fault ν → Option Int
  | emptyInput => some 0
  | unrecognized fault => some fault.position
  | malformed fault => fault.position?
  | _ => none

end Fault

/-- Results that may fail. -/
abbrev Outcome (ν α : Type) := Except (Fault ν) α

end Tangent
