import Tangent.Command.Word
import Tangent.PointCount
import Tangent.Report.Human

/-!
# Command-line arguments

What the words of a command line ask for. The last of repeated options counts, and there are no
other arguments. In one word with its option, the mark `--` takes the place of a value: the option
is then given without one.
-/

namespace Tangent

/-- What an option was given. -/
inductive Given (α : Type) where
  | value (value : α)
  /-- The mark that stands for no value. -/
  | mark
  deriving DecidableEq, Repr

/-- What was asked for on the command line. -/
structure Arguments (ν : Type) where
  formula : Option (Given String)
  points : Option (CountRequest ν)
  /-- The point the formula is evaluated at, in place of its tangents. -/
  evaluateAt : Option (Given ν)
  save : Option String
  format : OutputFormat
  maxPasses : Option Int
  version : Bool
  logLevel : Given String
  logFile : Option String
  healthCheck : Bool
  help : Bool

namespace Arguments

variable {ν : Type} [Number ν]

/-- Nothing was asked for. -/
def nothing : Arguments ν where
  formula := none
  points := none
  evaluateAt := none
  save := none
  format := .human
  maxPasses := none
  version := false
  logLevel := .value "WARNING"
  logFile := none
  healthCheck := false
  help := false

/-- The levels that may be asked for. -/
def logLevels : List String := ["DEBUG", "INFO", "WARNING", "ERROR"]

/-- Notes an option that takes no value. -/
def noteFlag (arguments : Arguments ν) : Switch → Arguments ν
  | .version => { arguments with version := true }
  | .healthCheck => { arguments with healthCheck := true }
  | .help => { arguments with help := true }
  | _ => arguments

/-- Notes an option with a value, if the value is acceptable. -/
def noteValue? (arguments : Arguments ν) (value : String) : Switch → Option (Arguments ν)
  | .eval => some { arguments with formula := some (.value value) }
  | .points => some { arguments with points := some (.text value) }
  | .evaluateAt =>
    (Number.read? value).map fun point => { arguments with evaluateAt := some (.value point) }
  | .save => some { arguments with save := some value }
  | .format =>
    if value = "json" ∨ value = "human" then
      some { arguments with format := OutputFormat.ofName value }
    else none
  | .maxPasses =>
    (NumberEntry.readWhole? value).map fun passes => { arguments with maxPasses := some passes }
  | .logLevel =>
    if value ∈ logLevels then some { arguments with logLevel := .value value } else none
  | .logFile => some { arguments with logFile := some value }
  | _ => some arguments

/-- Notes an option with the mark in place of its value. -/
def noteMark (arguments : Arguments ν) : Switch → Arguments ν
  | .eval => { arguments with formula := some .mark }
  | .points => { arguments with points := some .other }
  | .evaluateAt => { arguments with evaluateAt := some .mark }
  | .save => { arguments with save := none }
  | .format => { arguments with format := .unknown }
  | .maxPasses => { arguments with maxPasses := none }
  | .logLevel => { arguments with logLevel := .mark }
  | .logFile => { arguments with logFile := none }
  | _ => arguments

/-- What is left after an option that has no value of its own in its word. -/
inductive Remainder where
  /-- Everything in the word is dealt with. -/
  | done
  /-- This option still needs a value from the next word. -/
  | wanting (switch : Switch)

/-- Notes the options and the value that are written in one word with an option. The first
argument bounds the number of options in the word. -/
def noteAttached? : Nat → Arguments ν → Switch → (short : Bool) → Option String →
    Option (Arguments ν × Remainder)
  | 0, _, _, _, _ => none
  | bound + 1, arguments, option, short, attachment =>
    match attachment with
    | none =>
      if option.takesValue then some (arguments, .wanting option)
      else some (arguments.noteFlag option, .done)
    | some attachment =>
      if option.takesValue then
        if attachment = "--" then some (arguments.noteMark option, .done)
        else (arguments.noteValue? attachment option).map (·, .done)
      else
        match short, attachment.toList with
        | true, letter :: rest => do
          let next ← Switch.ofSpelling? (String.ofList ['-', letter])
          let further := if rest.isEmpty then none else some (String.ofList rest)
          noteAttached? bound (arguments.noteFlag option) next true further
        | _, _ => none

/-- How many options a word can hold at most. -/
def attachmentBound : Option String → Nat
  | some attachment => attachment.length + 1
  | none => 1

/-- Notes the words of a command line, if they are in order. -/
def noteAll? (arguments : Arguments ν) : List Word → Option (Arguments ν)
  | [] => some arguments
  | .switch option short attachment :: rest =>
    match noteAttached? (attachmentBound attachment) arguments option short attachment, rest with
    | some (noted, .done), rest => noted.noteAll? rest
    | some (noted, .wanting wanting), .argument value :: rest => do
      let noted ← noted.noteValue? value wanting
      noted.noteAll? rest
    | _, _ => none
  | _ :: _ => none

/-- What a command line asks for, if it is in order. -/
def ofWords? (words : List String) : Option (Arguments ν) := do
  noteAll? nothing (← Word.ofTexts? words)

end Arguments

end Tangent
