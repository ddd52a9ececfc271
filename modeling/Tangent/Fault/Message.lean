import Tangent.Fault.Basic

/-!
# Faults in words

The messages in which faults are reported. A message names what was expected, what was found
instead, or the value at fault; the place follows it in parentheses.
-/

namespace Tangent

/-- A name or text as it is quoted in messages. -/
def quoted (text : String) : String :=
  "'" ++ text ++ "'"

namespace Expectation

/-- An expectation in words. -/
def description : Expectation → String
  | expression => "expression"
  | continuation => "operator or end of input"
  | finish => "end of input"
  | closing => "')'"
  | separator => "',' or ')'"
  | opening name => "'(' after function name " ++ quoted name
  | nesting limit => "at most " ++ toString limit ++ " levels of nesting"

end Expectation

/-- How many arguments a function takes, in words. -/
def Elementary.arityText (function : Elementary) : String :=
  if function.leastArguments = function.mostArguments then
    toString function.leastArguments ++ " argument(s)"
  else
    toString function.leastArguments ++ " to " ++ toString function.mostArguments ++ " arguments"

namespace ParseFault

variable {ν : Type} [Number ν]

/-- What was expected and what was found instead. -/
def contrast? : ParseFault ν → Option (String × String)
  | unexpected expectation found _ => some (expectation.description, found.description)
  | unknownFunction name _ => some ("a known function name", quoted name)
  | wrongArgumentCount function count _ =>
    some (function.arityText, toString count ++ " argument(s)")
  | unterminated => none

/-- A fault in words. -/
def message : ParseFault ν → String
  | unexpected expectation found _ =>
    "Expected " ++ expectation.description ++ ", found " ++ found.description
  | unknownFunction name _ => "Unknown function " ++ quoted name
  | wrongArgumentCount function count _ =>
    function.name ++ "() takes " ++ function.arityText ++ ", got " ++ toString count
  | unterminated => "token stream must end with an END token"

end ParseFault

/-- The name that evaluation calls a function by. -/
def Elementary.fullName : Elementary → String
  | abs => "absolute"
  | asin => "arcsin"
  | acos => "arccos"
  | atan => "arctan"
  | log => "_log_kernel"
  | function => function.name

/-- A fault in words. What follows the first argument of a function would be a place for its
values. -/
def EvaluationFault.message : EvaluationFault → String
  | unboundVariable name => "Unbound variable " ++ quoted name
  | unknownFunction name => "Unknown function " ++ quoted name
  | wrongArgumentCount .log 0 =>
    Elementary.log.fullName ++ "() missing 1 required positional argument: 'x'"
  | wrongArgumentCount function count =>
    if count = 2 then "return arrays must be of ArrayType"
    else
      function.fullName ++ "() takes from 1 to 2 positional arguments but " ++ toString count ++
        " were given"
  | unequalLengths left right =>
    "operands could not be broadcast together with shapes (" ++ toString left ++ ",) (" ++
      toString right ++ ",) "

/-- A fault in words. -/
def DerivativeFault.message : DerivativeFault → String
  | noRule name => "No derivative rule for function " ++ quoted name
  | wrongArgumentCount 0 => "not enough values to unpack (expected 1, got 0)"
  | wrongArgumentCount _ => "too many values to unpack (expected 1)"

/-- A reason in words. -/
def Unroundable.message : Unroundable → String
  | undefined => "cannot convert float NaN to integer"
  | infinite => "cannot convert float infinity to integer"

/-- A reason in words. -/
def Indivisible.message : Indivisible → String
  | byZero => "division by zero"
  | tooLarge => "integer division result too large for a float"

/-- Why a whole number cannot be used as a number. -/
def oversizedText : String := "int too large to convert to float"

/-- A reason in words. -/
def Unplaceable.message : Unplaceable → String
  | negative => "Format specifier missing precision"
  | tooMany => "precision too big"
  | uncountable => "Too many decimal digits in format string"

/-- An obstacle in words. -/
def Obstacle.message : Obstacle → String
  | system reason | plotter reason => reason

/-- A fault in words. -/
def DisplayFault.message : DisplayFault → String
  | withoutFields shape => quoted shape.name ++ " object has no attribute 'get'"
  | withoutItems shape => quoted shape.name ++ " object is not iterable"
  | withoutEntries .list => "list indices must be integers or slices, not str"
  | withoutEntries .text => "string indices must be integers, not 'str'"
  | withoutEntries shape => quoted shape.name ++ " object is not subscriptable"
  | missingEntry name => quoted name
  | withoutPlaces shape => "must be real number, not " ++ shape.name
  | withoutDigits .text => "Unknown format code 'g' for object of type 'str'"
  | withoutDigits shape => "unsupported format string passed to " ++ shape.name ++ ".__format__"
  | oversized => oversizedText

/-- A fault in words. -/
def MissingValue.message : MissingValue → String
  | formula => "'list' object has no attribute 'strip'"
  | point => "float() argument must be a string or a real number, not 'list'"
  | level => "'list' object has no attribute 'upper'"

/-- The standard form of log records, in the style of percent signs. -/
def recordForm : String := "%(levelname)s:%(name)s:%(message)s"

/-- A style of log records in words: its sign, its class, and the standard form in it. -/
def styleText (sign className form : String) : String :=
  quoted sign ++ ": (<class 'logging." ++ className ++ "'>, " ++ quoted form ++ ")"

/-- The styles of log records in words. -/
def stylesText : String :=
  let texts := [
    styleText "%" "PercentStyle" recordForm,
    styleText "\x7b" "StrFormatStyle" "\x7blevelname\x7d:\x7bname\x7d:\x7bmessage\x7d",
    styleText "$" "StringTemplateStyle" "$\x7blevelname\x7d:$\x7bname\x7d:$\x7bmessage\x7d"]
  "\x7b" ++ String.intercalate ", " texts ++ "\x7d"

/-- A fault in words. -/
def Log.UnknownLevel.message : Log.UnknownLevel → String
  | recordFormat => "Unknown level: " ++ quoted recordForm
  | recordStyles => "Level not an integer or a valid string: " ++ stylesText

namespace Fault

variable {ν : Type} [Number ν]

/-- What was expected and what was found instead. -/
def contrast? : Fault ν → Option (String × String)
  | malformed fault => fault.contrast?
  | _ => none

/-- A fault in words. -/
def message : Fault ν → String
  | emptyInput => "Empty formula"
  | inputTooLong limit => "Formula longer than " ++ toString limit ++ " characters"
  | unrecognized fault =>
    "Unrecognized character " ++ quoted (String.singleton fault.character)
  | malformed fault => fault.message
  | unevaluated fault => fault.message
  | underivable fault => fault.message
  | tooFewPoints count => "Need at least 2 points, got " ++ toString count
  | tooManyPoints => oversizedText
  | invalidGrid start finish step =>
    "Invalid sampling grid [" ++ Number.fullText start ++ ", " ++ Number.fullText finish ++
      "] step " ++ Number.fullText step
  | unroundable reason => reason.message
  | indivisible reason => reason.message
  | unplaceable reason => reason.message
  | negativeHistory => "maxlen must be non-negative"
  | unplotted obstacle => obstacle.message
  | undisplayable reason => reason.message
  | missing value => value.message
  | unknownLevel fault => fault.message

/-- A message with the place it is about. -/
def located (message : String) : Option Int → String
  | none => message
  | some position => message ++ " (at position " ++ toString position ++ ")"

/-- A fault in words, with its place. -/
def text (fault : Fault ν) : String :=
  located fault.message fault.position?

end Fault

end Tangent
