import Tangent.Fault.Message
import Tangent.Plot
import Tangent.PointCount
import Tangent.Workspace

/-!
# The console

An interactive session: each line is a command, a comment, or a formula that becomes the current
one. A step takes the line entered and answers with what is printed and with the next state. A
step touches only the part of the state that its command is about, and a rejected formula leaves
the current one in place.
-/

namespace Tangent

/-- The state of the console. -/
structure Console (ν : Type) where
  workspace : Workspace ν
  /-- How many tangents are shown. -/
  points : Int
  debug : Bool
  logLevel : Log.Level
  /-- The path of the latest saved plot. -/
  lastPlot : Option String
  /-- Whether further lines are read. -/
  running : Bool

/-- A line of input, taken apart. -/
inductive Command where
  /-- A blank line or a comment. -/
  | nothing
  | quit
  | help
  | showTangents
  | setPoints (count : String)
  | savePlot (path : String)
  | setDebug (mode : Option Bool)
  | formula (text : String)
  deriving DecidableEq, Repr

namespace Command

/-- The words of a text, between blanks. The second argument holds the characters of the word
that is being read, in reverse. -/
def wordsFrom : List Char → List Char → List (List Char)
  | [], word => if word.isEmpty then [] else [word.reverse]
  | c :: rest, word =>
    if Text.isBlank c then
      if word.isEmpty then wordsFrom rest [] else word.reverse :: wordsFrom rest []
    else wordsFrom rest (c :: word)

/-- A word in small letters. Command words have no letters outside the basic alphabet. -/
def lowered (word : List Char) : String :=
  String.ofList (word.map Char.toLower)

/-- The mode behind the word `debug`. -/
def debugMode? (text : String) : Option Bool :=
  match (wordsFrom text.toList [])[1]? with
  | none => none
  | some word =>
    let mode := lowered word
    if mode = "on" ∨ mode = "true" ∨ mode = "enabled" then some true
    else if mode = "off" ∨ mode = "false" ∨ mode = "disabled" then some false
    else none

/-- The path a plot is saved to when none is given. -/
def defaultPath : String := "diffgraph.png"

/-- Takes a line apart. The command word reaches up to the first space. -/
def ofLine (line : String) : Command :=
  let text := Text.strip line
  let word := text.toList.takeWhile (· ≠ ' ')
  let argument := Text.strip (String.ofList (text.toList.drop (word.length + 1)))
  if text.isEmpty ∨ text.toList.head? = some '#' then nothing
  else
    match lowered word with
    | "quit" | "exit" => quit
    | "help" => help
    | "show" => showTangents
    | "points" => setPoints argument
    | "plot" => savePlot (if argument.isEmpty then defaultPath else argument)
    | "debug" => setDebug (debugMode? text)
    | _ => formula text

end Command

namespace Console

/-- What the command `help` prints. -/
def helpLines : List String := [
  "Enter a formula in x to make it the current function, e.g. sin(x) or x^3 - 2*x.",
  "Operators: + - * / ^   Functions: sin cos tan exp log sqrt abs sign",
  "           asin acos atan sinh cosh tanh   Constants: pi e",
  "",
  "Commands:",
  "  show            Print the current function, derivative and tangent lines",
  "  points N        Set the number of tangent points (2-9)",
  "  plot [FILE]     Save the tangent grid (default: diffgraph.png)",
  "  debug on|off    Toggle debug logging and the raw derivative",
  "  help            Show this message",
  "  quit            Exit"]

/-- What is printed where a formula is needed and there is none. -/
def missingFormula : String := "No function defined yet."

/-- The indentation of a formula that is shown again, as wide as the prompt. -/
def margin : String := "    "

/-- A line that points at a place of a text, or just behind it. -/
def caretLine? (text : String) : Option Int → Option String
  | none => none
  | some position =>
    if text.length < position then none
    else some (margin ++ String.ofList (List.replicate position.toNat ' ') ++ "^")

variable {ν : Type} [Number ν]

/-- A new console, with a workspace of its own. -/
def create (settings : Settings ν) : Outcome ν (Console ν) := do
  let workspace ← Workspace.create settings
  return {
    workspace
    points := settings.defaultPoints
    debug := false
    logLevel := .unset
    lastPlot := none
    running := true }

/-- What is printed in front of a line of input. -/
def prompt (console : Console ν) : String :=
  if console.debug then "DEBUG>>> " else ">>> "

/-- A fault as it is printed. -/
def faultLine (fault : Fault ν) : String :=
  "Error: " ++ fault.text

/-- The lines about a formula; debugging also shows the derivative as the rules give it. -/
def sessionLines (debug : Bool) (session : Session ν) : List String :=
  let raw := if debug then ["Raw derivative: " ++ session.derivative.text] else []
  ("Current function: f(x) = " ++ session.text) ::
    ("Derivative: f'(x) = " ++ session.derivativeText) :: raw

/-- The formula with a mark under the place of a fault, where it has one. -/
def markLines (text : String) (fault : Fault ν) : List String :=
  match caretLine? text fault.position? with
  | some caret => [margin ++ text, caret]
  | none => []

/-- The formula that stays in place after a rejected one. -/
def keptLines : Option (Session ν) → List String
  | some session => ["Keeping f(x) = " ++ session.text]
  | none => []

/-- Submits a formula. -/
def submit (settings : Settings ν) (entered : String) (console : Console ν) :
    List String × Console ν :=
  let (submission, workspace) := console.workspace.submit settings (some entered)
  let lines := match submission.fault, submission.session with
    | some fault, kept =>
      faultLine fault :: markLines (Text.strip entered) fault ++ keptLines kept
    | none, some session => sessionLines console.debug session
    | none, none => []
  (lines, { console with workspace })

/-- The lines about the current formula and its tangents. -/
def tableLines (settings : Settings ν) (console : Console ν) : List String :=
  match console.workspace.session with
  | none => [missingFormula]
  | some session =>
    sessionLines console.debug session ++
      match TangentLine.spread settings session console.points with
      | .ok lines => lines.map TangentLine.row
      | .error fault => [faultLine fault]

/-- Saves a plot of the current formula. -/
def save (settings : Settings ν) (plotter : Plotter ν) (path : String) (console : Console ν) :
    List String × Console ν :=
  match console.workspace.session with
  | none => ([missingFormula], console)
  | some session =>
    match Plot.save settings plotter session console.points path with
    | .error fault =>
      let task := if fault.isExpected then "Could not save plot: " else ""
      (["Error: " ++ task ++ fault.text], console)
    | .ok () => (["Plot saved to: " ++ path], { console with lastPlot := some path })

/-- Sets the number of points, unless none is given, and prints it. -/
def setPoints (settings : Settings ν) (count : String) (console : Console ν) :
    List String × Console ν :=
  let points :=
    if count.isEmpty then console.points else (CountRequest.text count).clamped settings
  (["Number of points: " ++ toString points], { console with points })

/-- Turns debugging on or off. -/
def setDebug (mode : Option Bool) (console : Console ν) : List String × Console ν :=
  match mode with
  | some true =>
    (["Debug mode enabled (raw derivative + debug logging)."],
      { console with debug := true, logLevel := .debug })
  | some false =>
    (["Debug mode disabled."], { console with debug := false, logLevel := .warning })
  | none => (["Usage: debug <on|off>"], console)

/-- Carries out a command: the lines it prints and the state after it. -/
def perform (settings : Settings ν) (plotter : Plotter ν) (console : Console ν) :
    Command → List String × Console ν
  | .nothing => ([], console)
  | .quit => ([], { console with running := false })
  | .help => (helpLines, console)
  | .showTangents => (console.tableLines settings, console)
  | .setPoints count => console.setPoints settings count
  | .savePlot path => console.save settings plotter path
  | .setDebug mode => console.setDebug mode
  | .formula text => console.submit settings text

/-- Lines as they are printed. -/
def printed (lines : List String) : String :=
  String.join (lines.map (· ++ "\n"))

/-- Takes a line of input, or the end of the input, behind the prompt. -/
def step (settings : Settings ν) (plotter : Plotter ν) (console : Console ν)
    (line : Option String) : String × Console ν :=
  match line with
  | none => (console.prompt, { console with running := false })
  | some line =>
    let (lines, next) := console.perform settings plotter (Command.ofLine line)
    (console.prompt ++ printed lines, next)

/-- What is printed before the first prompt. -/
def banner (settings : Settings ν) : String :=
  "diffgraph v" ++ settings.version ++ " — type 'help' for commands, 'quit' to exit."

/-- Starts the console with the formula that is set. -/
def start (settings : Settings ν) : Outcome ν (String × Console ν) := do
  let (lines, console) := (← create settings).submit settings settings.defaultFormula
  return (printed (banner settings :: lines), console)

/-- Takes lines until the console stops or the input ends: everything printed. -/
def transcript (settings : Settings ν) (plotter : Plotter ν) (console : Console ν) :
    List String → String
  | [] => if console.running then (console.step settings plotter none).1 else ""
  | line :: rest =>
    if console.running then
      let (output, next) := console.step settings plotter (some line)
      output ++ transcript settings plotter next rest
    else ""

end Console

end Tangent
