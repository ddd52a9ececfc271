import Tangent.Number.Binary64
import Tangent.Proofs.Token.Lexemes

/-!
# The lexer covers its text

A text is split into tokens without a rest: it is made of lexemes, each the longest where it
stands, with nothing but blanks between them. Where that is not possible, the lexer stops at a
character that is no blank and starts no lexeme, and what stands in front of it is split as if it
were the whole text: cutting off what follows leaves every lexeme the longest one.
-/

namespace Tangent.Token

open Text

variable {ν : Type} [Number ν]

/-- A lexeme with its symbol, and the blanks in front of it. -/
structure Piece (ν : Type) [Number ν] where
  gap : List Char
  lexeme : List Char
  symbol : Symbol ν
  blank : ∀ c ∈ gap, isBlank c = true
  isLexeme : Lexeme lexeme symbol

/-- The text of some pieces. -/
def textOf (pieces : List (Piece ν)) : List Char :=
  pieces.flatMap fun piece => piece.gap ++ piece.lexeme

/-- The tokens of some pieces, the first of which starts at the given position: each token stands
where its lexeme starts. -/
def placed (position : Nat) : List (Piece ν) → List (Token ν)
  | [] => []
  | piece :: rest =>
    ⟨piece.symbol, (position + piece.gap.length : Nat)⟩ ::
      placed (position + (piece.gap ++ piece.lexeme).length) rest

/-- Whether no lexeme of some pieces could be longer where it stands, with so much text behind the
last one. -/
def AllLongest : List (Piece ν) → (behind : List Char) → Prop
  | [], _ => True
  | piece :: rest, behind => Longest ν piece.lexeme (textOf rest ++ behind) ∧ AllLongest rest behind

@[simp]
theorem textOf_cons (piece : Piece ν) (rest : List (Piece ν)) :
    textOf (piece :: rest) = piece.gap ++ piece.lexeme ++ textOf rest := rfl

@[simp]
theorem textOf_append (first behind : List (Piece ν)) :
    textOf (first ++ behind) = textOf first ++ textOf behind :=
  List.flatMap_append

section Splitting

variable {pieces : List (Piece ν)} {gap rest behind : List Char} {c : Char}

/-- What is cut off behind some pieces makes none of their lexemes longer. -/
theorem AllLongest.cut (longest : AllLongest pieces (behind ++ rest)) :
    AllLongest pieces behind := by
  induction pieces with
  | nil => trivial
  | cons piece others inductionHypothesis =>
    obtain ⟨first, others⟩ := longest
    refine ⟨fun other symbol isLexeme starts => first other symbol isLexeme ?_,
      inductionHypothesis others⟩
    rw [← List.append_assoc, ← List.append_assoc]
    rw [← List.append_assoc] at starts
    exact starts.trans (List.prefix_append _ _)

/-- The lexer passes blanks. -/
theorem scan_blanks (blank : ∀ c ∈ gap, isBlank c = true) (position : Nat) (rest : List Char) :
    (scan position 0 (gap ++ rest) : Except _ (List (Token ν))) =
      scan (position + gap.length) 0 rest := by
  induction gap generalizing position with
  | nil => rfl
  | cons c others inductionHypothesis =>
    obtain ⟨isBlank, othersBlank⟩ := List.forall_mem_cons.1 blank
    rw [List.cons_append, scan, if_pos isBlank, inductionHypothesis othersBlank, List.length_cons,
      Nat.add_assoc, Nat.add_comm 1]

/-- The lexer reads a piece and goes on behind it. -/
theorem scan_piece (piece : Piece ν) (longest : Longest ν piece.lexeme rest) (position : Nat) :
    scan position 0 (piece.gap ++ piece.lexeme ++ rest) =
      (⟨piece.symbol, (position + piece.gap.length : Nat)⟩ :: ·) <$>
        scan (position + (piece.gap ++ piece.lexeme).length) 0 rest := by
  obtain ⟨first, others, same, visible⟩ := piece.isLexeme.visible
  have read := lexeme?_eq_some_iff.2
    ⟨piece.lexeme, rest, rfl, rfl, piece.isLexeme, longest⟩
  rw [List.append_assoc, scan_blanks piece.blank]
  rw [same] at read ⊢
  rw [scan_lexeme _ _ _ visible read, List.length_append, Nat.add_assoc]

/-- The lexer reads pieces and goes on behind them. -/
theorem scan_pieces (longest : AllLongest pieces rest) (position : Nat) :
    scan position 0 (textOf pieces ++ rest) =
      (placed position pieces ++ ·) <$> scan (position + (textOf pieces).length) 0 rest := by
  induction pieces generalizing position with
  | nil => exact (id_map (scan position 0 rest)).symm
  | cons piece others inductionHypothesis =>
    obtain ⟨first, othersLongest⟩ := longest
    have size : (textOf (piece :: others)).length =
        (piece.gap ++ piece.lexeme).length + (textOf others).length := List.length_append
    rw [size, textOf_cons, List.append_assoc, scan_piece piece first,
      inductionHypothesis othersLongest, Functor.map_map, Nat.add_assoc]
    rfl

/-- Every text starts with pieces and blanks, and goes on with something else that starts no lexeme,
or ends there. -/
theorem exists_pieces (text : List Char) :
    ∃ (pieces : List (Piece ν)) (gap rest : List Char), text = textOf pieces ++ gap ++ rest ∧
      (∀ c ∈ gap, isBlank c = true) ∧ AllLongest pieces (gap ++ rest) ∧
      ∀ c ∈ rest.head?, isBlank c = false ∧ (lexeme? rest : Option (Symbol ν × Nat)) = none := by
  have split : text.takeWhile isBlank ++ text.dropWhile isBlank = text :=
    List.takeWhile_append_dropWhile
  have blank : ∀ c ∈ text.takeWhile isBlank, isBlank c = true :=
    List.all_eq_true.1 List.all_takeWhile
  cases read : (lexeme? (text.dropWhile isBlank) : Option (Symbol ν × Nat)) with
  | none =>
    exact ⟨[], text.takeWhile isBlank, text.dropWhile isBlank, split.symm, blank, trivial,
      fun c first => ⟨dropWhile_stays c first, read⟩⟩
  | some found =>
    obtain ⟨lexeme, behind, same, _, isLexeme, longest⟩ := lexeme?_eq_some_iff.1 read
    have shorter : behind.length < text.length := by
      obtain ⟨first, others, rfl, _⟩ := isLexeme.visible
      rw [← split, same]
      simp only [List.length_append, List.length_cons]
      omega
    obtain ⟨pieces, gap, rest, rfl, gapBlank, allLongest, stops⟩ := exists_pieces behind
    refine ⟨⟨text.takeWhile isBlank, lexeme, found.1, blank, isLexeme⟩ :: pieces, gap, rest, ?_,
      gapBlank, ⟨?_, allLongest⟩, stops⟩
    · simpa [same] using split.symm
    · rwa [← List.append_assoc]
termination_by text.length

end Splitting

section Texts

variable {text : String} {pieces : List (Piece ν)} {gap rest : List Char} {c : Char}

/-- Behind pieces and blanks the lexer has met the tokens of the pieces. -/
theorem tokenize_eq (same : text.toList = textOf pieces ++ gap ++ rest)
    (longest : AllLongest pieces (gap ++ rest)) (blank : ∀ c ∈ gap, isBlank c = true) :
    tokenize text = (placed 0 pieces ++ ·) <$> scan (textOf pieces ++ gap).length 0 rest := by
  rw [tokenize, same, List.append_assoc, scan_pieces longest, Nat.zero_add, scan_blanks blank,
    List.length_append]

/-- A text of pieces and blanks is split into the tokens of the pieces. -/
theorem tokenize_of_pieces (same : text.toList = textOf pieces ++ gap)
    (longest : AllLongest pieces gap) (blank : ∀ c ∈ gap, isBlank c = true) :
    tokenize text = .ok (placed 0 pieces ++ [⟨.endOfInput, text.length⟩]) := by
  have read : tokenize text =
      (placed 0 pieces ++ ·) <$> scan (textOf pieces ++ gap).length 0 [] :=
    tokenize_eq (by rw [same, List.append_nil]) (by rwa [List.append_nil]) blank
  rw [read, scan, ← same, String.length_toList]
  rfl

/-- The lexer refuses a text at the character behind pieces and blanks that starts no lexeme. -/
theorem tokenize_of_misfit (same : text.toList = textOf pieces ++ gap ++ c :: rest)
    (longest : AllLongest pieces (gap ++ c :: rest)) (blank : ∀ c ∈ gap, isBlank c = true)
    (visible : isBlank c = false)
    (misfit : (lexeme? (c :: rest) : Option (Symbol ν × Nat)) = none) :
    (tokenize text : Except _ (List (Token ν))) = .error ⟨c, (textOf pieces ++ gap).length⟩ := by
  rw [tokenize_eq same longest blank, scan, if_neg (by simp [visible]), misfit]
  rfl

/-- What stands in front of a place between two tokens is split alone as it is in the whole text. -/
theorem tokenize_cut (same : text.toList = textOf pieces ++ gap ++ rest)
    (longest : AllLongest pieces (gap ++ rest)) (blank : ∀ c ∈ gap, isBlank c = true) :
    tokenize (String.ofList (text.toList.take (textOf pieces ++ gap).length)) =
      .ok (placed 0 pieces ++ [⟨.endOfInput, (textOf pieces ++ gap).length⟩]) := by
  rw [same, List.take_left]
  have alone : (String.ofList (textOf pieces ++ gap)).toList = textOf pieces ++ gap :=
    String.toList_ofList
  rw [tokenize_of_pieces alone longest.cut blank, ← String.length_toList, alone]

/-- A text is refused at a character that is no blank and starts no lexeme, behind pieces and blanks
that are split alone as they are in the whole text. -/
theorem exists_misfit {fault : UnrecognizedCharacter}
    (refused : (tokenize text : Except _ (List (Token ν))) = .error fault) :
    ∃ (pieces : List (Piece ν)) (gap rest : List Char),
      text.toList = textOf pieces ++ gap ++ fault.character :: rest ∧
      fault.position = (textOf pieces ++ gap).length ∧
      (∀ c ∈ gap, isBlank c = true) ∧ AllLongest pieces (gap ++ fault.character :: rest) ∧
      isBlank fault.character = false ∧
      (∀ lexeme (symbol : Symbol ν), Lexeme lexeme symbol →
        ¬lexeme <+: fault.character :: rest) ∧
      tokenize (String.ofList (text.toList.take fault.position)) =
        .ok (placed 0 pieces ++ [⟨.endOfInput, fault.position⟩]) := by
  obtain ⟨pieces, gap, rest, same, blank, longest, stops⟩ := exists_pieces (ν := ν) text.toList
  cases rest with
  | nil =>
    rw [List.append_nil] at same longest
    cases refused.symm.trans (tokenize_of_pieces same longest blank)
  | cons c tail =>
    obtain ⟨visible, misfit⟩ := stops c rfl
    obtain rfl := Except.error.inj
      (refused.symm.trans (tokenize_of_misfit same longest blank visible misfit))
    exact ⟨pieces, gap, tail, same, rfl, blank, longest, visible, lexeme?_eq_none_iff.1 misfit,
      tokenize_cut same longest blank⟩

end Texts

/-- A text is accepted exactly if it is made of lexemes with nothing but blanks between them, each
the longest where it stands; its tokens are those of the lexemes, each where its lexeme starts, and
the end of the input behind the last character. A text is refused exactly if such a beginning is
followed by a character that is no blank and starts no lexeme. It is refused at that character, and
what stands in front of it is accepted alone, with the tokens that were met until then. -/
theorem tokenize_covers (text : String) :
    (∀ tokens : List (Token ν), tokenize text = .ok tokens ↔
      ∃ (pieces : List (Piece ν)) (gap : List Char), text.toList = textOf pieces ++ gap ∧
        (∀ c ∈ gap, isBlank c = true) ∧ AllLongest pieces gap ∧
        tokens = placed 0 pieces ++ [⟨.endOfInput, text.length⟩]) ∧
    ∀ fault, (tokenize text : Except _ (List (Token ν))) = .error fault ↔
      ∃ (pieces : List (Piece ν)) (gap rest : List Char),
        text.toList = textOf pieces ++ gap ++ fault.character :: rest ∧
        fault.position = (textOf pieces ++ gap).length ∧
        (∀ c ∈ gap, isBlank c = true) ∧ AllLongest pieces (gap ++ fault.character :: rest) ∧
        isBlank fault.character = false ∧
        (∀ lexeme (symbol : Symbol ν), Lexeme lexeme symbol →
          ¬lexeme <+: fault.character :: rest) ∧
        tokenize (String.ofList (text.toList.take fault.position)) =
          .ok (placed 0 pieces ++ [⟨.endOfInput, fault.position⟩]) := by
  obtain ⟨pieces, gap, rest, same, blank, longest, stops⟩ := exists_pieces (ν := ν) text.toList
  refine ⟨fun tokens => ⟨fun accepted => ?_, ?_⟩, fun fault => ⟨exists_misfit, ?_⟩⟩
  · cases rest with
    | nil =>
      rw [List.append_nil] at same longest
      have read := tokenize_of_pieces same longest blank
      exact ⟨pieces, gap, same, blank, longest, Except.ok.inj (accepted.symm.trans read)⟩
    | cons c tail =>
      obtain ⟨visible, misfit⟩ := stops c rfl
      cases accepted.symm.trans (tokenize_of_misfit same longest blank visible misfit)
  · rintro ⟨pieces, gap, same, blank, longest, rfl⟩
    exact tokenize_of_pieces same longest blank
  · obtain ⟨c, position⟩ := fault
    rintro ⟨pieces, gap, rest, same, rfl, blank, longest, visible, misfit, _⟩
    exact tokenize_of_misfit same longest blank visible (lexeme?_eq_none_iff.2 misfit)

/-- A point behind `1.` starts another numeral, and a mark without digits a name. The lexer stops at
a character of no token, and has the tokens in front of it by then. -/
theorem tokenize_covers_up_to_misfit :
    let met : List (Token Float) := [⟨.number 1, 0⟩, ⟨.number 0.2, 2⟩, ⟨.identifier "e", 4⟩]
    (tokenize "1..2e #3" : Except _ (List (Token Float))) = .error ⟨'#', 6⟩ ∧
      tokenize "1..2e " = .ok (met ++ [⟨.endOfInput, 6⟩]) ∧
      ∃ (pieces : List (Piece Float)) (gap rest : List Char),
        "1..2e #3".toList = textOf pieces ++ gap ++ '#' :: rest ∧
        AllLongest pieces (gap ++ '#' :: rest) ∧ placed 0 pieces = met := by
  intro met
  have refused : (tokenize "1..2e #3" : Except _ (List (Token Float))) = .error ⟨'#', 6⟩ := rfl
  have alone : tokenize "1..2e " = .ok (met ++ [⟨.endOfInput, 6⟩]) := rfl
  obtain ⟨pieces, gap, rest, same, _, _, longest, _, _, cut⟩ :=
    ((tokenize_covers "1..2e #3").2 ⟨'#', 6⟩).1 refused
  refine ⟨refused, alone, pieces, gap, rest, same, longest, ?_⟩
  exact List.append_cancel_right (Except.ok.inj (cut.symm.trans alone))

end Tangent.Token
