import Mathlib.Data.List.TakeWhile
import Tangent.Proofs.Grammar.Derivation
import Tangent.Proofs.Token.Spelling

/-!
# Lexemes

The texts that symbols are read from: numerals, names, and the characters that are tokens by
themselves. The lexer tries one kind after the other and may look at characters behind a numeral
before it knows where that ended. Still it finds the longest lexeme at the front of a text, of
whatever kind, and finds one wherever there is any.
-/

namespace Tangent

namespace Text

/-- Digits of no script are blank. -/
theorem isBlank_of_isDecimalDigit {c : Char} (digit : isDecimalDigit c = true) :
    isBlank c = false := by
  have apart : ∀ first ∈ zeroDigits, 0x20 < first ∧ first + 9 < 0x85 ∨
      0xA0 < first ∧ first + 9 < 0x1680 ∨ 0x1680 < first ∧ first + 9 < 0x2000 ∨
        0x3000 < first := by decide
  simp only [isDecimalDigit, digitValue?, Option.isSome_map, List.find?_isSome, Bool.and_eq_true,
    decide_eq_true_eq] at digit
  obtain ⟨first, listed, atLeast, atMost⟩ := digit
  have := apart first listed
  simp only [isBlank, Bool.or_eq_false_iff, Bool.and_eq_false_iff, decide_eq_false_iff_not,
    beq_eq_false_iff_ne]
  omega

end Text

namespace Numeral

open Text

/-- No character of a numeral is blank. -/
theorem Denotes.visible {text : List Char} {value : Decimal} (denotes : Denotes text value) :
    ∀ c ∈ text, isBlank c = false := by
  cases denotes with
  | parts nonempty wholeAll fractionAll pointed raised =>
    have digits {part : List Char} (all : ∀ c ∈ part, isDecimalDigit c = true) :
        ∀ c ∈ part, isBlank c = false :=
      fun c present => isBlank_of_isDecimalDigit (all c present)
    simp only [List.forall_mem_append]
    refine ⟨⟨⟨digits wholeAll, ?_⟩, digits fractionAll⟩, ?_⟩
    · cases pointed with
      | whole => exact nofun
      | point => exact List.forall_mem_singleton.2 (by decide)
    · cases raised with
      | none => exact nofun
      | marked isMark isSign nonempty all =>
        simp only [List.forall_mem_cons, List.forall_mem_append]
        refine ⟨?_, ?_, digits all⟩
        · rcases isMark with rfl | rfl <;> decide
        · rcases isSign with rfl | rfl | rfl
          · exact nofun
          · exact List.forall_mem_singleton.2 rfl
          · exact List.forall_mem_singleton.2 rfl

end Numeral

namespace Token

open Text

variable {ν : Type} [Number ν]

/-- A lexeme and its symbol. -/
inductive Lexeme : List Char → Symbol ν → Prop where
  | number {text : List Char} {value : Decimal} (denotes : Numeral.Denotes text value) :
      Lexeme text (.number (Arithmetic.ofDecimal value))
  | name {name : String} (named : isName name = true) : Lexeme name.toList (.identifier name)
  | operator (operator : BinaryOperator) : Lexeme [operator.symbol] (.operator operator.sign)
  | opening : Lexeme ['('] (.leftParen "(")
  | closing : Lexeme [')'] (.rightParen ")")
  | comma : Lexeme [','] (.comma ",")

/-- No lexeme at the front of a text is longer than this one, with so much behind it. -/
def Longest (ν : Type) [Number ν] (lexeme behind : List Char) : Prop :=
  ∀ other (symbol : Symbol ν), Lexeme other symbol → other <+: lexeme ++ behind →
    other.length ≤ lexeme.length

variable {c : Char} {lexeme text : List Char} {symbol : Symbol ν} {length : Nat}

/-- A character that is a token by itself is a lexeme. -/
theorem lexeme_of_single (single : singleSymbol? c = some symbol) : Lexeme [c] symbol := by
  unfold singleSymbol? at single
  split at single
  · next sign =>
    cases single
    rcases sign with rfl | rfl | rfl | rfl | rfl
    · exact .operator .add
    · exact .operator .sub
    · exact .operator .mul
    · exact .operator .div
    · exact .operator .pow
  · split at single
    · next opening =>
      cases single
      subst opening
      exact .opening
    · split at single
      · next closing =>
        cases single
        subst closing
        exact .closing
      · split at single
        · next comma =>
          cases single
          subst comma
          exact .comma
        · cases single

/-- The three kinds of lexemes. -/
theorem Lexeme.cases (isLexeme : Lexeme lexeme symbol) :
    (∃ value, Numeral.Denotes lexeme value ∧ symbol = .number (Arithmetic.ofDecimal value)) ∨
    (∃ first rest, lexeme = first :: rest ∧ startsName first = true ∧
      (∀ c ∈ rest, continuesName c = true) ∧ symbol = .identifier (String.ofList lexeme)) ∨
    ∃ c, lexeme = [c] ∧ singleSymbol? c = some symbol := by
  cases isLexeme with
  | number denotes => exact .inl ⟨_, denotes, rfl⟩
  | @name name named =>
    refine .inr (.inl ?_)
    unfold isName at named
    cases letters : name.toList with
    | nil => simp [letters] at named
    | cons first rest =>
      simp only [letters, Bool.and_eq_true, List.all_eq_true] at named
      refine ⟨first, rest, rfl, named.1, named.2, ?_⟩
      rw [← letters, String.ofList_toList]
  | operator operator => exact .inr (.inr ⟨_, rfl, by cases operator <;> rfl⟩)
  | opening => exact .inr (.inr ⟨_, rfl, rfl⟩)
  | closing => exact .inr (.inr ⟨_, rfl, rfl⟩)
  | comma => exact .inr (.inr ⟨_, rfl, rfl⟩)

/-- A lexeme starts with a character that is not blank. -/
theorem Lexeme.visible (isLexeme : Lexeme lexeme symbol) :
    ∃ first rest, lexeme = first :: rest ∧ isBlank first = false := by
  rcases isLexeme.cases with ⟨value, denotes, _⟩ | ⟨first, rest, same, starts, _⟩ |
    ⟨c, same, single⟩
  · obtain ⟨first, rest, same, digit | rfl⟩ := denotes.head
    · exact ⟨first, rest, same, isBlank_of_isDecimalDigit digit⟩
    · exact ⟨'.', rest, same, by decide⟩
  · exact ⟨first, rest, same, (startsName_apart starts).1⟩
  · exact ⟨c, [], same, (singleSymbol?_apart single).1⟩

/-- What the lexer reads off the front of a text is a lexeme with its symbol. -/
theorem lexeme_of_lexeme? (found : lexeme? text = some (symbol, length)) :
    Lexeme (text.take length) symbol := by
  unfold lexeme? at found
  split at found
  · next numeral scanned =>
    cases found
    exact .number (Numeral.denotes_of_scan? scanned)
  · cases text with
    | nil => cases found
    | cons c rest =>
      dsimp only at found
      split at found
      · next starts =>
        cases found
        have named : isName (String.ofList ((c :: rest).takeWhile continuesName)) = true := by
          simp [isName, continuesName, starts]
        rw [← List.prefix_iff_eq_take.1 (List.takeWhile_prefix _)]
        simpa using Lexeme.name (ν := ν) named
      · obtain ⟨single, isSingle, same⟩ := Option.map_eq_some_iff.1 found
        cases same
        exact lexeme_of_single isSingle

/-- Where a lexeme stands at the front of a text, the lexer reads one that is as long at least. -/
theorem Lexeme.exists_lexeme? (isLexeme : Lexeme lexeme symbol) (behind : List Char) :
    ∃ (found : Symbol ν) (length : Nat), lexeme? (lexeme ++ behind) = some (found, length) ∧
      lexeme.length ≤ length := by
  rcases isLexeme.cases with ⟨value, denotes, rfl⟩ | ⟨first, rest, rfl, starts, continues, _⟩ |
    ⟨c, rfl, single⟩
  · obtain ⟨numeral, scanned, reaches⟩ := Numeral.exists_scan?_of_denotes denotes behind
    exact ⟨.number (Arithmetic.ofDecimal numeral.value), numeral.length,
      by simp [lexeme?, scanned], reaches⟩
  · refine ⟨_, _, lexeme?_name starts (rest ++ behind), ?_⟩
    rw [List.takeWhile_append_of_pos continues]
    simp
  · exact ⟨symbol, 1, lexeme?_single single behind, Nat.le_refl 1⟩

/-- A lexeme alone is read as its symbol. -/
theorem Lexeme.lexeme?_eq (isLexeme : Lexeme lexeme symbol) :
    lexeme? lexeme = some (symbol, lexeme.length) := by
  rcases isLexeme.cases with ⟨value, denotes, rfl⟩ | ⟨first, rest, rfl, starts, continues, rfl⟩ |
    ⟨c, rfl, single⟩
  · simp [lexeme?, denotes.scan?_eq]
  · rw [lexeme?_name starts, List.takeWhile_eq_self_iff.2 continues]
  · exact lexeme?_single single []

/-- The lexer finds the longest lexeme at the front of a text. -/
theorem lexeme?_eq_some_iff :
    lexeme? text = some (symbol, length) ↔
      ∃ lexeme behind, text = lexeme ++ behind ∧ length = lexeme.length ∧ Lexeme lexeme symbol ∧
        Longest ν lexeme behind := by
  constructor
  · intro found
    have within := (lexeme?_length found).2
    have size := List.length_take_of_le within
    refine ⟨text.take length, text.drop length, (List.take_append_drop _ _).symm, size.symm,
      lexeme_of_lexeme? found, ?_⟩
    rintro other otherSymbol isLexeme ⟨rest, same⟩
    rw [List.take_append_drop] at same
    obtain ⟨again, reach, foundAgain, reaches⟩ := isLexeme.exists_lexeme? rest
    rw [same, found] at foundAgain
    cases foundAgain
    rwa [size]
  · rintro ⟨lexeme, behind, rfl, rfl, isLexeme, longest⟩
    obtain ⟨found, length, read, reaches⟩ := isLexeme.exists_lexeme? behind
    have within := (lexeme?_length read).2
    have foundLexeme := lexeme_of_lexeme? read
    have bound := longest _ found foundLexeme (List.take_prefix _ _)
    rw [List.length_take_of_le within] at bound
    obtain rfl : length = lexeme.length := Nat.le_antisymm bound reaches
    rw [List.take_left] at foundLexeme
    have same := foundLexeme.lexeme?_eq.symm.trans isLexeme.lexeme?_eq
    rw [read, same]

/-- The lexer finds nothing where there is no lexeme at the front of a text. -/
theorem lexeme?_eq_none_iff :
    (lexeme? text : Option (Symbol ν × Nat)) = none ↔
      ∀ lexeme (symbol : Symbol ν), Lexeme lexeme symbol → ¬lexeme <+: text := by
  constructor
  · rintro none lexeme symbol isLexeme ⟨behind, rfl⟩
    obtain ⟨found, length, read, _⟩ := isLexeme.exists_lexeme? behind
    cases none.symm.trans read
  · intro none
    cases read : (lexeme? text : Option (Symbol ν × Nat)) with
    | none => rfl
    | some found =>
      exact absurd (List.take_prefix _ _) (none _ found.1 (lexeme_of_lexeme? read))

/-- No character of a lexeme is blank. -/
theorem Lexeme.forall_visible (isLexeme : Lexeme lexeme symbol) :
    ∀ c ∈ lexeme, isBlank c = false := by
  rcases isLexeme.cases with ⟨value, denotes, _⟩ | ⟨first, rest, rfl, starts, continues, _⟩ |
    ⟨c, rfl, single⟩
  · exact denotes.visible
  · refine List.forall_mem_cons.2 ⟨(startsName_apart starts).1, fun c present => ?_⟩
    rcases Bool.or_eq_true_iff.1 (continues c present) with letter | digit
    · exact (startsName_apart letter).1
    · exact isBlank_of_isDecimalDigit (isDecimalDigit_of_isDigit digit)
  · exact List.forall_mem_singleton.2 (singleSymbol?_apart single).1

/-- In front of a blank no lexeme could be longer. -/
theorem longest_of_blank (blank : ∀ c ∈ behind.head?, isBlank c = true) :
    Longest ν lexeme behind := by
  intro longer symbol isLexeme starts
  cases behind with
  | nil => simpa using starts.length_le
  | cons c rest =>
    apply Nat.le_of_not_lt
    intro exceeds
    -- A longer lexeme would have the blank inside.
    obtain ⟨tail, rfl⟩ : lexeme <+: longer :=
      List.prefix_of_prefix_length_le (List.prefix_append _ _) starts (Nat.le_of_lt exceeds)
    obtain ⟨next, others, rfl⟩ : ∃ next others, tail = next :: others :=
      List.exists_cons_of_ne_nil (by rintro rfl; simp at exceeds)
    obtain ⟨rfl, _⟩ := List.cons_prefix_cons.1 ((List.prefix_append_right_inj lexeme).1 starts)
    have visible := isLexeme.forall_visible next (by simp)
    rw [blank next rfl] at visible
    cases visible

/-- What the lexer reads as a whole is the longest lexeme. -/
theorem longest_of_lexeme? (read : lexeme? (lexeme ++ behind) = some (symbol, lexeme.length)) :
    Longest ν lexeme behind := by
  obtain ⟨found, rest, same, length, _, longest⟩ := lexeme?_eq_some_iff.1 read
  obtain ⟨rfl, rfl⟩ := List.append_inj same length
  exact longest

/-- A lexeme has one symbol. -/
theorem Lexeme.symbol_eq (isLexeme : Lexeme lexeme symbol) (again : Lexeme lexeme other) :
    symbol = other := by
  have same := isLexeme.lexeme?_eq.symm.trans again.lexeme?_eq
  simpa using same

end Token

end Tangent
