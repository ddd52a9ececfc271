import Tangent.Command.Arguments
import Tangent.Console
import Tangent.Report.Basic

/-!
# Runs of the program

What a command line makes the program do: answer one request about a formula and end, or start
the console on the lines of its input.
-/

namespace Tangent

/-- What a command line in order asks for. -/
inductive Purpose where
  | explain
  | showVersion
  | check
  | answer (formula : Given String)
  | converse
  deriving DecidableEq, Repr

/-- The purpose of a command line. Explanations, the version and the self-check come before
formulas, and without a formula the console is started. -/
def Purpose.ofArguments {ν : Type} (arguments : Arguments ν) : Purpose :=
  if arguments.help then .explain
  else if arguments.version then .showVersion
  else if arguments.healthCheck then .check
  else
    match arguments.formula with
    | some formula => .answer formula
    | none => .converse

/-- How a run ended: its exit code, everything it printed, and the settings in effect. -/
structure Run (ν : Type) where
  exitCode : Nat
  output : String
  settings : Settings ν

namespace Run

variable {ν : Type} [Number ν]

/-- The exit code of a run that did what was asked. -/
def success : Nat := 0

/-- The exit code of a run that could not. -/
def failure : Nat := 1

/-- The exit code of a command line that is not in order. -/
def misuse : Nat := 2

/-- The lines of an input; a line break at the end opens no further line. -/
def inputLines (input : String) : List String :=
  let lines := input.toList.splitOn '\n' |>.map String.ofList
  if lines.getLast? = some "" then lines.dropLast else lines

/-- The settings changed by a command line: a positive number of passes replaces the limit. -/
def adjusted (settings : Settings ν) (arguments : Arguments ν) : Settings ν :=
  match arguments.maxPasses with
  | some passes => if 0 < passes then { settings with maxPasses := passes } else settings
  | none => settings

/-- What is printed about the way the program is called. -/
def usage : String :=
  "usage: diffgraph [options]"

/-- The answer to the request for one formula. -/
def request (settings : Settings ν) (arguments : Arguments ν) (formula : String) :
    Outcome ν (Report ν) :=
  match arguments.evaluateAt with
  | some (.value point) => Report.evaluation settings (some formula) point
  | some .mark => Report.ofSession settings (some formula) fun _ => .error (.missing .point)
  | none => Report.tangency settings (some formula) arguments.points

/-- A report as it is printed. -/
def lines (arguments : Arguments ν) (report : Report ν) : Outcome ν (List String) :=
  (report.document.printed arguments.format).mapError .undisplayable

/-- The saving of a plot that was asked for besides; an empty path asks for none. What is printed
about it is a failure, or a success that people read. -/
def saving (settings : Settings ν) (plotter : Plotter ν) (arguments : Arguments ν)
    (formula : String) : Outcome ν (Nat × List String) := do
  match arguments.save with
  | none | some "" => return (success, [])
  | some path =>
    let report ← Report.plotting settings plotter (some formula) arguments.points path
    let code := if report.isAnswered then success else failure
    if arguments.format = .human || !report.isAnswered then
      return (code, ← lines arguments report)
    else return (code, [])

/-- Answers one request about a formula. -/
def oneShot (settings : Settings ν) (plotter : Plotter ν) (arguments : Arguments ν)
    (formula : String) : Outcome ν (Run ν) := do
  let report ← request settings arguments formula
  let answer ← lines arguments report
  if report.isAnswered then
    let (code, more) ← saving settings plotter arguments formula
    return ⟨code, Console.printed (answer ++ more), settings⟩
  else return ⟨failure, Console.printed answer, settings⟩

/-- Checks on a formula whose derivative, value and slope are known that the program works. -/
def selfCheck (settings : Settings ν) : Outcome ν (Run ν) := do
  let session ← Session.build settings (some "x^2") none
  let height ← session.valueAt (Scalar.ofInt 3)
  let slope ← session.slopeAt (Scalar.ofInt 3)
  let works := session.derivativeText = "2 * x" && height == Scalar.ofInt 9 &&
    slope == Scalar.ofInt 6
  return if works then ⟨success, Console.printed ["[OK]"], settings⟩
    else ⟨failure, Console.printed ["[FAIL]"], settings⟩

/-- Holds the console on the lines of an input. -/
def conversation (settings : Settings ν) (plotter : Plotter ν) (input : String) :
    Outcome ν (Run ν) := do
  let (opening, console) ← Console.start settings
  let transcript := console.transcript settings plotter (inputLines input)
  return ⟨success, opening ++ transcript, settings⟩

/-- Runs the program for a purpose. -/
def forPurpose (settings : Settings ν) (plotter : Plotter ν) (arguments : Arguments ν)
    (input : String) : Purpose → Outcome ν (Run ν)
  | .explain => return ⟨success, Console.printed [usage], settings⟩
  | .showVersion => return ⟨success, Console.printed [settings.version], settings⟩
  | .check => selfCheck settings
  | .answer (.value formula) => oneShot settings plotter arguments formula
  | .answer .mark => throw (.missing .formula)
  | .converse => conversation settings plotter input

/-- Runs the program on the words of a command line and its input. Nothing but explanations is given
without a level for the log. -/
def ofCommandLine (settings : Settings ν) (plotter : Plotter ν)
    (words : List String) (input : String) : Outcome ν (Run ν) :=
  match Arguments.ofWords? words with
  | none => .ok ⟨misuse, "", settings⟩
  | some arguments =>
    let purpose := Purpose.ofArguments arguments
    if arguments.logLevel = .mark ∧ purpose ≠ .explain then .error (.missing .level)
    else
      forPurpose (adjusted settings arguments) plotter arguments input purpose

end Run

end Tangent
