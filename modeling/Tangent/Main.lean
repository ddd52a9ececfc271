import Tangent.Command.Run
import Tangent.Number.Binary64

/-!
# The program

Connects the library with the command line, the terminal and the files that plots are saved to.

The library writes formulas as text only; it does not typeset them, and it has no page to enter them
on. A figure says what is to be seen, without widths of lines, sizes of marks and letters, and grid
lines; drawing it is left to a plotter. Settings are an argument, wherever they come from, and of
logs only levels and names count. Stack, memory and time have no bounds here: there is an answer for
trees of every depth, grids of every length and histories of every size.
-/

namespace Tangent.Program

/-- A plotter that has drawn a figure, and saved it as the outcome says. -/
def plotterOf (saved : Except Obstacle Unit) : Plotter Float where
  draw _ := .ok ()
  save _ _ _ := saved

/-- Saves a listing of a plot. -/
def savePlot (settings : Settings Float) (session : Session Float) (count : Int)
    (path : String) : IO (Plotter Float) := do
  match Plot.figure settings session count none with
  | .ok figure =>
    try
      IO.FS.writeFile path (Console.printed (figure.panels.flatMap Panel.listing))
      return plotterOf (.ok ())
    catch reason => return plotterOf (.error (.system (toString reason)))
  | .error _ => return plotterOf (.ok ())

/-- Saves the plot that a line of the console asks for. -/
def saveAsked (settings : Settings Float) (console : Console Float) (line : String) :
    IO (Plotter Float) := do
  match Command.ofLine line, console.workspace.session with
  | .savePlot path, some session => savePlot settings session console.points path
  | _, _ => return plotterOf (.ok ())

/-- Saves the plot that a command line asks for besides the answer about a formula. An empty path
asks for none. -/
def saveBesides (settings : Settings Float) (arguments : Arguments Float) (formula : String) :
    IO (Plotter Float) := do
  match Run.request settings arguments formula, Session.build settings (some formula) none,
    arguments.save with
  | .ok _, .ok session, some path =>
    let count := CountRequest.clampedOrDefault settings arguments.points
    if path.isEmpty then return plotterOf (.ok ())
    else savePlot settings session count path
  | _, _, _ => return plotterOf (.ok ())

/-- A line of input without its line break, or nothing at the end of the input. -/
def readLine? (input : IO.FS.Stream) : IO (Option String) := do
  let line ← input.getLine
  if line.isEmpty then return none
  else return some ((Run.inputLines line).headD "")

/-- Runs the console until it stops. -/
partial def converse (settings : Settings Float) (input output : IO.FS.Stream)
    (console : Console Float) : IO Unit := do
  if console.running then
    output.putStr console.prompt
    output.flush
    match ← readLine? input with
    | none => return
    | some line =>
      let plotter ← saveAsked settings console line
      let (lines, next) := console.perform settings plotter (Command.ofLine line)
      output.putStr (Console.printed lines)
      converse settings input output next

/-- Prints how a run ended and returns its exit code. -/
def conclude (output : IO.FS.Stream) (outcome : Outcome Float (Run Float)) : IO UInt32 := do
  match outcome with
  | .ok run =>
    output.putStr run.output
    return run.exitCode.toUInt32
  | .error fault =>
    (← IO.getStderr).putStr (Console.printed [fault.text])
    return Run.failure.toUInt32

end Tangent.Program

open Tangent Tangent.Program in
/-- Runs the program on the words of its command line. -/
def main (words : List String) : IO UInt32 := do
  let standard : Settings Float := Settings.standard
  let output ← IO.getStdout
  let run (plotter : Plotter Float) := Run.ofCommandLine standard plotter words ""
  let idle := plotterOf (.ok ())
  match Arguments.ofWords? words with
  | none => conclude output (run idle)
  | some arguments =>
    let settings := Run.adjusted standard arguments
    match Purpose.ofArguments arguments with
    | .converse =>
      match Console.start settings with
      | .ok (opening, console) =>
        output.putStr opening
        converse settings (← IO.getStdin) output console
        return 0
      | .error _ => conclude output (run idle)
    | .answer (.value formula) =>
      conclude output (run (← saveBesides settings arguments formula))
    | _ => conclude output (run idle)
