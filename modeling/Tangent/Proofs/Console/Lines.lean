import Tangent.Console

/-!
# Lines of a console

What a line asks for, said by its words: the command word is what stands up to the first space, in
letters of either case, and a line without a command word is a comment or a formula. A change of the
mode is told by the second word between blanks.
-/

namespace Tangent.Command

/-- The word of a line that says what it asks for, in small letters. -/
def word (line : String) : String :=
  String.ofList (((Text.strip line).toList.takeWhile (· ≠ ' ')).map Char.toLower)

/-- What follows the command word. -/
def argument (line : String) : String :=
  let text := (Text.strip line).toList
  Text.strip (String.ofList (text.drop ((text.takeWhile (· ≠ ' ')).length + 1)))

/-- The path of a line that saves a plot. -/
def plotPath (line : String) : String :=
  if argument line = "" then "diffgraph.png" else argument line

/-- What stands in front of the first blank. -/
def visiblePart (text : List Char) : List Char :=
  text.takeWhile fun c => !Text.isBlank c

/-- What stands behind the first word, without the blanks between them. -/
def behindWord (text : List Char) : List Char :=
  (text.dropWhile fun c => !Text.isBlank c).dropWhile Text.isBlank

/-- The second word of a line, in small letters. -/
def modeWord (line : String) : String :=
  String.ofList ((visiblePart (behindWord (Text.strip line).toList)).map Char.toLower)

/-- The mode that a line chooses, if its second word names one. -/
def chosenMode? (line : String) : Option Bool :=
  if modeWord line = "on" ∨ modeWord line = "true" ∨ modeWord line = "enabled" then some true
  else if modeWord line = "off" ∨ modeWord line = "false" ∨ modeWord line = "disabled" then
    some false
  else none

/-- The words of the commands. -/
def words : List String := ["quit", "exit", "help", "show", "points", "plot", "debug"]

/-- A line that is blank or a comment. -/
def IsIgnored (line : String) : Prop :=
  (Text.strip line).isEmpty = true ∨ (Text.strip line).toList.head? = some '#'

/-- A line that is neither ignored nor a command. -/
def IsFormula (line : String) : Prop :=
  ¬ IsIgnored line ∧ word line ∉ words

instance (line : String) : Decidable (IsIgnored line) :=
  inferInstanceAs (Decidable (_ ∨ _))

instance (line : String) : Decidable (IsFormula line) :=
  inferInstanceAs (Decidable (_ ∧ _))

theorem isFormula_iff {line : String} :
    IsFormula line ↔ ¬ IsIgnored line ∧ word line ≠ "quit" ∧ word line ≠ "exit" ∧
      word line ≠ "help" ∧ word line ≠ "show" ∧ word line ≠ "points" ∧ word line ≠ "plot" ∧
      word line ≠ "debug" := by
  simp [IsFormula, words]

/-- An ignored line has none of the command words. -/
theorem IsIgnored.word_notMem {line : String} (ignored : IsIgnored line) : word line ∉ words := by
  rcases ignored with blank | comment
  · have noWord : word line = "" := by simp_all [word]
    rw [noWord]
    decide
  · obtain ⟨rest, same⟩ := List.head?_eq_some_iff.1 comment
    have mark : (word line).toList.head? = some '#' := by
      simp [word, same]
    intro present
    have others : ∀ other ∈ words, other.toList.head? ≠ some '#' := by decide
    exact others _ present mark

section Words

variable {text word : List Char}

/-- A word that has begun reaches up to the first blank. -/
theorem wordsFrom_eq_cons (begun : word ≠ []) :
    wordsFrom text word =
      (word.reverse ++ visiblePart text) ::
        wordsFrom (text.dropWhile fun c => !Text.isBlank c) [] := by
  induction text generalizing word with
  | nil => simp [wordsFrom, visiblePart, begun]
  | cons c rest inductionHypothesis =>
    cases blank : Text.isBlank c with
    | true => simp [wordsFrom, visiblePart, blank, begun]
    | false =>
      have further := inductionHypothesis (List.cons_ne_nil c word)
      simp_all [wordsFrom, visiblePart]

/-- Blanks in front of words do not count. -/
theorem wordsFrom_dropWhile : wordsFrom (text.dropWhile Text.isBlank) [] = wordsFrom text [] := by
  induction text with
  | nil => rfl
  | cons c rest inductionHypothesis =>
    cases blank : Text.isBlank c with
    | true => simp [wordsFrom, blank, inductionHypothesis]
    | false => simp [blank]

/-- The words of a text that starts with one. -/
theorem wordsFrom_of_visible {c : Char} {rest : List Char} (visible : Text.isBlank c = false) :
    wordsFrom (c :: rest) [] =
      visiblePart (c :: rest) :: wordsFrom (behindWord (c :: rest)) [] := by
  have begun : wordsFrom rest [c] = _ := wordsFrom_eq_cons (List.cons_ne_nil c [])
  simp only [behindWord, wordsFrom_dropWhile, visiblePart] at begun ⊢
  simp [wordsFrom, visible, begun]

end Words

/-- The first of the words of a text is what stands up to its first blank, if that is anything. -/
theorem head?_wordsFrom {text : List Char} (stays : ∀ c ∈ text.head?, Text.isBlank c = false) :
    (wordsFrom text []).head? = if text = [] then none else some (visiblePart text) := by
  cases text with
  | nil => rfl
  | cons c rest => simp [wordsFrom_of_visible (stays c rfl)]

/-- The mode behind the command word is the one that the second word names. -/
theorem debugMode?_strip {line : String} (debugs : word line = "debug") :
    debugMode? (Text.strip line) = chosenMode? line := by
  obtain ⟨c, rest, same⟩ : ∃ c rest, (Text.strip line).toList = c :: rest := by
    refine List.exists_cons_of_ne_nil fun blank => ?_
    have noWord : word line = "" := by simp [word, blank]
    exact absurd (noWord.symm.trans debugs) (by decide)
  have visible : Text.isBlank c = false := Text.strip_stays c (by rw [same]; rfl)
  have second : (wordsFrom (Text.strip line).toList [])[1]? =
      if behindWord (Text.strip line).toList = [] then none
      else some (visiblePart (behindWord (Text.strip line).toList)) := by
    rw [same, wordsFrom_of_visible visible, List.getElem?_cons_succ, ← List.head?_eq_getElem?]
    exact head?_wordsFrom Text.dropWhile_stays
  unfold debugMode? chosenMode? modeWord
  rw [second]
  by_cases alone : behindWord (Text.strip line).toList = []
  · rw [if_pos alone, alone]
    rfl
  · rw [if_neg alone]
    rfl

/-- What a line asks for. -/
inductive Asks (line : String) : Command → Prop where
  | nothing (ignored : IsIgnored line) : Asks line .nothing
  | quit (leaves : word line = "quit" ∨ word line = "exit") : Asks line .quit
  | help (helps : word line = "help") : Asks line .help
  | showTangents (shows : word line = "show") : Asks line .showTangents
  | setPoints (counts : word line = "points") : Asks line (.setPoints (argument line))
  | savePlot (plots : word line = "plot") : Asks line (.savePlot (plotPath line))
  | setDebug (debugs : word line = "debug") : Asks line (.setDebug (chosenMode? line))
  | formula (isFormula : IsFormula line) : Asks line (.formula (Text.strip line))

/-- The path of a plot is the rest of the line, or the usual one. -/
theorem plotPath_eq (line : String) :
    (if (argument line).isEmpty then defaultPath else argument line) = plotPath line := by
  simp only [plotPath, String.isEmpty_iff, defaultPath]

/-- A line is taken for what it asks for. -/
theorem asks_ofLine (line : String) : Asks line (ofLine line) := by
  have isWord : lowered ((Text.strip line).toList.takeWhile (· ≠ ' ')) = word line := rfl
  have isArgument : Text.strip (String.ofList ((Text.strip line).toList.drop
      (((Text.strip line).toList.takeWhile (· ≠ ' ')).length + 1))) = argument line := rfl
  unfold ofLine
  dsimp only
  rw [isWord, isArgument, plotPath_eq]
  split
  · next ignored => exact .nothing ignored
  · next counts =>
    split
    · next quits => exact .quit (.inl quits)
    · next exits => exact .quit (.inr exits)
    · next helps => exact .help helps
    · next shows => exact .showTangents shows
    · next points => exact .setPoints points
    · next plots => exact .savePlot plots
    · next debugs =>
      rw [debugMode?_strip debugs]
      exact .setDebug debugs
    · next quits exits helps shows points plots debugs =>
      refine .formula ⟨counts, ?_⟩
      simp only [words, List.mem_cons, List.not_mem_nil, or_false, not_or]
      exact ⟨quits, exits, helps, shows, points, plots, debugs⟩

end Tangent.Command
