import Tangent.Proofs.Decimal.Reading
import Tangent.Proofs.Result

/-!
# Spelled symbols

A text spells symbols if the lexer reads them off its front wherever it stands, provided that what
follows is no part of a name or a numeral. Texts that spell symbols can be put one behind the
other where the second one does not go on with the first, which is all that reading a written
formula needs to know of the lexer.
-/

namespace Tangent.Token

open Text

variable {ν : Type}

/-- Whether a character is part of no name and no numeral. -/
def separates (c : Char) : Bool :=
  !continuesName c && !isDecimalDigit c && c != '.'

/-- What follows a name or a numeral without being part of it. -/
def Apart (rest : List Char) : Prop :=
  ∀ c ∈ rest.head?, separates c = true

theorem Apart.nil : Apart [] := by
  simp [Apart]

theorem Apart.cons {c : Char} (separate : separates c = true) (rest : List Char) :
    Apart (c :: rest) := by
  simpa [Apart] using separate

theorem Apart.append {text rest : List Char} (first : Apart text) (second : Apart rest) :
    Apart (text ++ rest) := by
  cases text with
  | nil => exact second
  | cons c tail => exact .cons (first c rfl) (tail ++ rest)

/-- A numeral ends where something apart follows. -/
theorem Apart.ends {rest : List Char} (apart : Apart rest) : Numeral.Ends rest where
  noDigit c first := by
    have separate := apart c first
    simp only [separates, Bool.and_eq_true, Bool.not_eq_true'] at separate
    exact separate.1.2
  noPoint c first := by
    rintro rfl
    exact absurd (apart _ first) (by decide)
  noMark c first := by
    constructor
    · rintro rfl
      exact absurd (apart _ first) (by decide)
    · rintro rfl
      exact absurd (apart _ first) (by decide)

/-- Whether a text is a name: the start of one and characters that continue it. -/
def isName (name : String) : Bool :=
  match name.toList with
  | [] => false
  | first :: rest => startsName first && rest.all continuesName

/-- The letters and the underscore by their code points. -/
theorem startsName_range {c : Char} (starts : startsName c = true) :
    (65 ≤ c.toNat ∧ c.toNat ≤ 90) ∨ (97 ≤ c.toNat ∧ c.toNat ≤ 122) ∨ c.toNat = 95 := by
  rcases Bool.or_eq_true_iff.1 starts with letter | underscore
  · rcases Bool.or_eq_true_iff.1 letter with upper | lower
    · obtain ⟨above, below⟩ := of_decide_eq_true upper
      exact .inl ⟨UInt32.le_iff_toNat_le.1 above, UInt32.le_iff_toNat_le.1 below⟩
    · obtain ⟨above, below⟩ := Bool.and_eq_true_iff.1 lower
      exact .inr (.inl ⟨UInt32.le_iff_toNat_le.1 (of_decide_eq_true above),
        UInt32.le_iff_toNat_le.1 (of_decide_eq_true below)⟩)
  · obtain rfl := of_decide_eq_true underscore
    exact .inr (.inr rfl)

/-- What starts a name is neither blank nor part of a numeral. -/
theorem startsName_apart {c : Char} (starts : startsName c = true) :
    isBlank c = false ∧ isDecimalDigit c = false ∧ c ≠ '.' := by
  have range := startsName_range starts
  refine ⟨?_, ?_, ?_⟩
  · simp only [isBlank, Bool.or_eq_false_iff, Bool.and_eq_false_iff, decide_eq_false_iff_not,
      beq_eq_false_iff_ne]
    omega
  · apply Bool.eq_false_iff.2
    intro digit
    have basic := isDigit_iff.1 (isDigit_of_isDecimalDigit (by omega) digit)
    omega
  · rintro rfl
    exact absurd starts (by decide)

/-- No numeral starts with a character that is neither a digit nor a point. -/
theorem scan?_eq_none {c : Char} (noDigit : isDecimalDigit c = false) (noPoint : c ≠ '.')
    (rest : List Char) : Numeral.scan? (c :: rest) = none := by
  have noFraction : Numeral.fractionPart (c :: rest) = ([], 0) :=
    Numeral.fractionPart.eq_2 _ fun other same => noPoint (by cases same; rfl)
  simp [Numeral.scan?, noDigit, noFraction]

/-- A character that is a token by itself starts nothing else. -/
theorem singleSymbol?_apart {c : Char} {symbol : Symbol ν}
    (single : singleSymbol? c = some symbol) :
    isBlank c = false ∧ isDecimalDigit c = false ∧ c ≠ '.' ∧ startsName c = false := by
  unfold singleSymbol? at single
  split at single
  · next sign => rcases sign with rfl | rfl | rfl | rfl | rfl <;> decide
  · split at single
    · next opening => subst opening; decide
    · split at single
      · next closing => subst closing; decide
      · split at single
        · next comma => subst comma; decide
        · cases single

variable [Number ν]

/-- A character that is a token by itself is read as one. -/
theorem lexeme?_single {c : Char} {symbol : Symbol ν} (single : singleSymbol? c = some symbol)
    (rest : List Char) : lexeme? (c :: rest) = some (symbol, 1) := by
  obtain ⟨_, noDigit, noPoint, noName⟩ := singleSymbol?_apart single
  simp [lexeme?, scan?_eq_none noDigit noPoint, noName, single]

/-- Where a name starts, the lexer reads as much as continues it. -/
theorem lexeme?_name {first : Char} (starts : startsName first = true) (rest : List Char) :
    (lexeme? (first :: rest) : Option (Symbol ν × Nat)) =
      some (.identifier (String.ofList (first :: rest.takeWhile continuesName)),
        (first :: rest.takeWhile continuesName).length) := by
  obtain ⟨_, noDigit, noPoint⟩ := startsName_apart starts
  have continues : continuesName first = true := by simp [continuesName, starts]
  simp [lexeme?, scan?_eq_none noDigit noPoint, starts, continues]

/-- The lexer passes what belongs to the token before. -/
theorem scan_taken (position : Nat) (text rest : List Char) :
    (scan position text.length (text ++ rest) : Except _ (List (Token ν))) =
      scan (position + text.length) 0 rest := by
  induction text generalizing position with
  | nil => rfl
  | cons c text inductionHypothesis =>
    rw [List.length_cons, List.cons_append, scan, inductionHypothesis]
    congr 1
    omega

/-- The lexer reads a lexeme and goes on behind it. -/
theorem scan_lexeme {c : Char} {symbol : Symbol ν} (position : Nat) (text rest : List Char)
    (visible : isBlank c = false)
    (read : lexeme? (c :: text ++ rest) = some (symbol, text.length + 1)) :
    scan position 0 (c :: text ++ rest) =
      (⟨symbol, position⟩ :: ·) <$> scan (position + (c :: text).length) 0 rest := by
  have behind := scan_taken (ν := ν) (position + 1) text rest
  rw [List.cons_append] at read ⊢
  rw [scan, if_neg (by simp [visible])]
  simp only [read, Nat.add_sub_cancel, behind]
  rw [List.length_cons, Nat.add_assoc, Nat.add_comm 1]
  rfl

/-- A text spells symbols if, in front of anything apart, the lexer reads tokens of these symbols
and goes on behind it. -/
def Spells (text : List Char) (symbols : List (Symbol ν)) : Prop :=
  ∀ position rest, Apart rest → ∃ tokens : List (Token ν), tokens.map Token.symbol = symbols ∧
    scan position 0 (text ++ rest) = (tokens ++ ·) <$> scan (position + text.length) 0 rest

namespace Spells

variable {text more : List Char} {symbols others : List (Symbol ν)}

theorem nil : Spells [] ([] : List (Symbol ν)) := by
  intro position rest apart
  exact ⟨[], rfl, (id_map (scan position 0 rest)).symm⟩

theorem append (first : Spells text symbols) (apart : Apart more) (second : Spells more others) :
    Spells (text ++ more) (symbols ++ others) := by
  intro position rest restApart
  obtain ⟨tokens, spelled, read⟩ := first position (more ++ rest) (apart.append restApart)
  obtain ⟨behind, behindSpelled, readBehind⟩ := second (position + text.length) rest restApart
  refine ⟨tokens ++ behind, by rw [List.map_append, spelled, behindSpelled], ?_⟩
  rw [List.append_assoc, read, readBehind, List.length_append, Nat.add_assoc, Functor.map_map]
  simp only [List.append_assoc]

/-- A lexeme that ends where something apart follows spells its symbol. -/
theorem of_lexeme {c : Char} {symbol : Symbol ν} (visible : isBlank c = false)
    (read : ∀ rest, Apart rest → lexeme? (c :: text ++ rest) = some (symbol, text.length + 1)) :
    Spells (c :: text) [symbol] := by
  intro position rest apart
  exact ⟨[⟨symbol, position⟩], rfl, scan_lexeme position text rest visible (read rest apart)⟩

/-- A blank spells nothing. -/
theorem blank (spells : Spells text symbols) : Spells (' ' :: text) symbols := by
  intro position rest apart
  obtain ⟨tokens, spelled, read⟩ := spells (position + 1) rest apart
  refine ⟨tokens, spelled, ?_⟩
  rw [List.cons_append, scan, if_pos (by decide), read, List.length_cons, Nat.add_assoc,
    Nat.add_comm 1]

/-- A character that is a token by itself spells its symbol, whatever follows. -/
theorem cons {c : Char} {symbol : Symbol ν} (single : singleSymbol? c = some symbol)
    (spells : Spells text symbols) : Spells (c :: text) (symbol :: symbols) := by
  intro position rest apart
  obtain ⟨tokens, spelled, read⟩ := spells (position + 1) rest apart
  refine ⟨⟨symbol, position⟩ :: tokens, by rw [List.map_cons, spelled], ?_⟩
  have first : scan position 0 (c :: (text ++ rest)) =
      (⟨symbol, position⟩ :: ·) <$> scan (position + 1) 0 (text ++ rest) :=
    scan_lexeme position [] (text ++ rest) (singleSymbol?_apart single).1
      (lexeme?_single single (text ++ rest))
  rw [List.cons_append, first, read, Functor.map_map, List.length_cons, Nat.add_assoc,
    Nat.add_comm 1]
  rfl

/-- A name spells itself. -/
theorem name {name : String} (named : isName name = true) :
    Spells name.toList [(.identifier name : Symbol ν)] := by
  have same : String.ofList name.toList = name := String.ofList_toList
  unfold isName at named
  cases letters : name.toList with
  | nil => simp [letters] at named
  | cons c text =>
    simp only [letters, Bool.and_eq_true, List.all_eq_true] at named
    refine of_lexeme (startsName_apart named.1).1 fun rest apart => ?_
    have stops : rest.takeWhile continuesName = [] := by
      cases rest with
      | nil => rfl
      | cons next tail =>
        have separate := apart next rfl
        simp only [separates, Bool.and_eq_true, Bool.not_eq_true'] at separate
        simp [separate.1.1]
    have whole : (text ++ rest).takeWhile continuesName = text := by
      rw [List.takeWhile_append_of_pos named.2, stops, List.append_nil]
    rw [List.cons_append, lexeme?_name named.1, whole, ← letters, same, letters, List.length_cons]

/-- What a text spells starts with the symbol of its first character, if that is a token by
itself. -/
theorem head_eq {c : Char} {symbol : Symbol ν} (single : singleSymbol? c = some symbol)
    (spells : Spells (c :: text) symbols) (some : symbols ≠ []) :
    ∃ others, symbols = symbol :: others := by
  obtain ⟨tokens, spelled, read⟩ := spells 0 [] .nil
  obtain ⟨visible, _⟩ := singleSymbol?_apart single
  have first := scan_lexeme 0 [] (text ++ []) visible (lexeme?_single single _)
  obtain ⟨others, _, same⟩ := map_eq_ok_iff.1 (first.symm.trans read)
  cases tokens with
  | nil => exact absurd spelled.symm some
  | cons token rest =>
    obtain ⟨rfl, _⟩ := List.cons.inj same
    exact ⟨rest.map Token.symbol, spelled.symm⟩

/-- A numeral spells its number. -/
theorem numeral {text : List Char} {value : Decimal}
    (starts : ∃ c rest, text = c :: rest ∧ c.isDigit = true)
    (read : ∀ rest, Numeral.Ends rest →
      Numeral.scan? (text ++ rest) = some ⟨value, text.length⟩) :
    Spells text [(.number (Arithmetic.ofDecimal value) : Symbol ν)] := by
  obtain ⟨c, text, rfl, digit⟩ := starts
  have visible : isBlank c = false := by
    have range := isDigit_iff.1 digit
    simp only [isBlank, Bool.or_eq_false_iff, Bool.and_eq_false_iff, decide_eq_false_iff_not,
      beq_eq_false_iff_ne]
    omega
  refine of_lexeme visible fun rest apart => ?_
  have scanned := read rest apart.ends
  rw [List.cons_append] at scanned ⊢
  simp [lexeme?, scanned]

end Spells

/-- A text that spells symbols is split into tokens of these symbols and the end of the input. -/
theorem tokenize_of_spells {text : List Char} {symbols : List (Symbol ν)}
    (spells : Spells text symbols) :
    ∃ front position, tokenize (String.ofList text) = .ok (front ++ [⟨.endOfInput, position⟩]) ∧
      front.map Token.symbol = symbols := by
  obtain ⟨front, spelled, read⟩ := spells 0 [] .nil
  rw [List.append_nil] at read
  refine ⟨front, (0 + text.length : Nat), ?_, spelled⟩
  rw [tokenize, String.toList_ofList, read, scan]
  rfl

end Tangent.Token
