import Tangent.Text.DecimalDigit

/-!
# Words of the command line

Options have a long spelling, which may be cut short as long as it stays unambiguous, and some have
a short one, with which a value or further short options may be written in one word. A word that
starts with a dash is an option, unless it is a negative number or contains a space and no option
fits.
-/

namespace Tangent

/-- The options of the command line. -/
inductive Switch where
  | help | eval | points | evaluateAt | save | format | maxPasses | version | logLevel | logFile
  | healthCheck
  deriving DecidableEq, Repr

namespace Switch

/-- The spellings of the options. -/
def spellings : List (String × Switch) := [
  ("-h", help), ("--help", help), ("-e", eval), ("--eval", eval), ("-n", points),
  ("--points", points), ("-x", evaluateAt), ("--at", evaluateAt), ("--save", save),
  ("--format", format), ("--max-passes", maxPasses), ("-v", version), ("--version", version),
  ("--log-level", logLevel), ("--log-file", logFile), ("--health-check", healthCheck)]

/-- The option of a full spelling. -/
def ofSpelling? (spelling : String) : Option Switch :=
  (spellings.find? (·.1 = spelling)).map (·.2)

/-- Whether an option is followed by a value. -/
def takesValue : Switch → Bool
  | help | version | healthCheck => false
  | _ => true

end Switch

/-- What a word of the command line is. -/
inductive Word where
  | argument (text : String)
  /-- An option, written with a single dash or not, and what else its word holds. -/
  | switch (switch : Switch) (short : Bool) (attachment : Option String)
  | unknownSwitch
  /-- The mark behind which no word is an option. -/
  | endOfSwitches
  deriving DecidableEq, Repr

namespace Word

/-- Whether a word is written like a negative number; a line break behind it does no harm. -/
def isNegativeNumber (word : List Char) : Bool :=
  match word with
  | '-' :: rest =>
    let rest := if rest.getLast? = some '\n' then rest.dropLast else rest
    let whole := rest.takeWhile Text.isDecimalDigit
    match rest.drop whole.length with
    | [] => !whole.isEmpty
    | '.' :: fraction => !fraction.isEmpty && fraction.all Text.isDecimalDigit
    | _ => false
  | _ => false

/-- Splits a word at its first equals sign. -/
def splitEquals (word : List Char) : String × Option String :=
  let name := word.takeWhile (· ≠ '=')
  (String.ofList name,
    match word.drop name.length with
    | _ :: value => some (String.ofList value)
    | [] => none)

/-- The options that a word may be an incomplete or extended spelling of. -/
def candidates (word : List Char) : List Word :=
  match word with
  | '-' :: '-' :: _ =>
    let (name, attachment) := splitEquals word
    (Switch.spellings.filter fun entry => name.toList.isPrefixOf entry.1.toList).map fun entry =>
      switch entry.2 false attachment
  | dash :: letter :: rest =>
    (Switch.spellings.filter fun entry => entry.1 = String.ofList [dash, letter]).map fun entry =>
      switch entry.2 true (some (String.ofList rest))
  | _ => []

/-- Whether a spelling has a single dash. -/
def isShort (spelling : List Char) : Bool :=
  spelling[1]? ≠ some '-'

/-- What a word is by its spelling, if it is not ambiguous. -/
def ofText? (text : String) : Option Word :=
  let word := text.toList
  if word.length ≤ 1 ∨ word.head? ≠ some '-' then some (argument text)
  else
    let (name, attachment) := splitEquals word
    match Switch.ofSpelling? text, attachment.bind fun _ => Switch.ofSpelling? name with
    | some option, _ => some (switch option (isShort word) none)
    | none, some option => some (switch option (isShort word) attachment)
    | none, none =>
      match candidates word with
      | [found] => some found
      | [] =>
        if isNegativeNumber word ∨ ' ' ∈ word then some (argument text) else some unknownSwitch
      | _ => none

/-- What the words of a command line are, if none is ambiguous. -/
def ofTexts? : List String → Option (List Word)
  | [] => some []
  | text :: rest =>
    if text = "--" then some (endOfSwitches :: rest.map argument)
    else do
      let word ← ofText? text
      let words ← ofTexts? rest
      return word :: words

end Word

end Tangent
