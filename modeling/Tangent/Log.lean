import Tangent.Text.Blank

/-!
# Logging

The names of loggers and the levels from which on they report.
-/

namespace Tangent

namespace Log

/-- The name that all loggers of the program start with. -/
def rootName : String := "diffgraph"

/-- The full name of a logger. -/
def loggerName (name : String) : String :=
  if rootName.toList.isPrefixOf name.toList then name else rootName ++ "." ++ name

/-- Levels by severity. -/
inductive Level where
  | unset | debug | info | warning | error | critical
  deriving DecidableEq, Repr

namespace Level

/-- The rank of a level. -/
def rank : Level → Nat
  | unset => 0
  | debug => 10
  | info => 20
  | warning => 30
  | error => 40
  | critical => 50

end Level

/-- What a name stands for that belongs to logging but is no level. -/
inductive UnknownLevel where
  /-- The standard form of log records. -/
  | recordFormat
  /-- The styles such forms are written in. -/
  | recordStyles
  deriving DecidableEq, Repr

/-- The capitals of a letter. Beside the basic alphabet two letters and two ligatures have capitals
that occur in known names. -/
def capitals (c : Char) : List Char :=
  if c = 'ı' then ['I']
  else if c = 'ſ' then ['S']
  else if c = 'ﬅ' ∨ c = 'ﬆ' then ['S', 'T']
  else [c.toUpper]

/-- The level of a name in letters of either case; a name that is not known to logging stands for
information. -/
def Level.ofName (name : String) : Except UnknownLevel Level :=
  match String.ofList (name.toList.flatMap capitals) with
  | "NOTSET" => .ok unset
  | "DEBUG" => .ok debug
  | "WARNING" | "WARN" => .ok warning
  | "ERROR" => .ok error
  | "CRITICAL" | "FATAL" => .ok critical
  | "BASIC_FORMAT" => .error .recordFormat
  | "_STYLES" => .error .recordStyles
  | _ => .ok info

/-- How the root logger is set up: it has one outlet of its own and passes nothing on. -/
structure Setup where
  logger : String
  level : Level
  outlets : Nat
  passesOn : Bool

/-- Sets the root logger up at a named level, in place of any setup before. -/
def setup (levelName : String) : Except UnknownLevel Setup := do
  let level ← Level.ofName levelName
  return ⟨rootName, level, 1, false⟩

end Log

end Tangent
