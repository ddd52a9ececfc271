import Tangent.Proofs.Grammar.Paired
import Tangent.Proofs.Token.Coverage
import Tangent.Proofs.Token.Lexed

/-!
# Spacing

No lexeme has a blank in it, so in front of a blank every lexeme is the longest one, whatever the
lexer looked at behind it before. Other blanks between the lexemes of a text therefore give tokens
of the same symbols, each where its lexeme lies now, and so does a text without the blanks at its
ends.
-/

namespace Tangent

open Text

namespace Token

variable {ν : Type}

/-- Where a position of one token list lies in another: at the token of the same number, if there is
one. -/
def relocated : List (Token ν) → List (Token ν) → Int → Int
  | token :: rest, other :: others, position =>
    if token.position = position then other.position else relocated rest others position
  | _, _, position => position

/-- Tokens of the same symbols in another list are moved to where they lie there. -/
theorem map_moved_relocated {tokens others : List (Token ν)}
    (symbols : others.map Token.symbol = tokens.map Token.symbol)
    (ascending : tokens.Pairwise fun first second => first.position < second.position) :
    tokens.map (Token.moved (relocated tokens others)) = others := by
  induction tokens generalizing others with
  | nil => simpa using symbols.symm
  | cons token rest inductionHypothesis =>
    cases others with
    | nil => cases symbols
    | cons other others =>
      obtain ⟨first, behind⟩ := List.cons.inj symbols
      obtain ⟨later, restAscending⟩ := List.pairwise_cons.1 ascending
      have apart : ∀ next ∈ rest, Token.moved (relocated (token :: rest) (other :: others)) next =
          Token.moved (relocated rest others) next := by
        intro next present
        have different : token.position ≠ next.position := Int.ne_of_lt (later next present)
        rw [Token.moved, Token.moved, relocated, if_neg different]
      rw [List.map_cons, List.map_congr_left apart, inductionHypothesis behind restAscending,
        Token.moved, relocated, if_pos rfl, ← first]

variable [Number ν]

/-- A text as its lexemes, each the longest where it stands, with nothing but blanks between
them. -/
structure Split (text : String) (pieces : List (Piece ν)) (gap : List Char) : Prop where
  same : text.toList = textOf pieces ++ gap
  blank : ∀ c ∈ gap, isBlank c = true
  longest : AllLongest pieces gap

/-- The same lexemes with other blanks around them, at least one between two of them. -/
structure Respaced (pieces respaced : List (Piece ν)) : Prop where
  lexemes : respaced.map Piece.lexeme = pieces.map Piece.lexeme
  separated : ∀ piece ∈ respaced.tail, piece.gap ≠ []

section Pieces

variable {pieces respaced : List (Piece ν)} {gap : List Char} {text : String}

/-- Pieces of the same lexemes have the same symbols. -/
theorem map_symbol_eq (lexemes : respaced.map Piece.lexeme = pieces.map Piece.lexeme) :
    respaced.map Piece.symbol = pieces.map Piece.symbol := by
  induction pieces generalizing respaced with
  | nil => simpa using lexemes
  | cons piece rest inductionHypothesis =>
    cases respaced with
    | nil => cases lexemes
    | cons other others =>
      obtain ⟨first, behind⟩ := List.cons.inj lexemes
      have symbol : other.symbol = piece.symbol :=
        other.isLexeme.symbol_eq (first ▸ piece.isLexeme)
      rw [List.map_cons, List.map_cons, symbol, inductionHypothesis behind]

/-- The symbols of placed tokens are those of their pieces. -/
theorem map_symbol_placed (position : Nat) :
    (placed position pieces).map Token.symbol = pieces.map Piece.symbol := by
  induction pieces generalizing position with
  | nil => rfl
  | cons piece rest inductionHypothesis => rw [placed, List.map_cons, inductionHypothesis]; rfl

/-- Placed tokens move with the text. -/
theorem placed_add (position offset : Nat) :
    placed (position + offset) pieces =
      (placed position pieces).map (Token.moved fun place => place + offset) := by
  induction pieces generalizing position with
  | nil => rfl
  | cons piece rest inductionHypothesis =>
    rw [placed, placed, List.map_cons, Nat.add_right_comm position offset,
      Nat.add_right_comm position offset, inductionHypothesis]
    rfl

/-- A placed token is that of a piece, where its lexeme starts. -/
theorem exists_piece_of_mem_placed {token : Token ν} {position : Nat}
    (present : token ∈ placed position pieces) :
    ∃ before piece behind, pieces = before ++ piece :: behind ∧
      token = ⟨piece.symbol, (position + (textOf before ++ piece.gap).length : Nat)⟩ := by
  induction pieces generalizing position with
  | nil => cases present
  | cons piece rest inductionHypothesis =>
    rcases List.mem_cons.1 present with rfl | inRest
    · exact ⟨[], piece, rest, rfl, rfl⟩
    · obtain ⟨before, other, behind, rfl, rfl⟩ := inductionHypothesis inRest
      refine ⟨piece :: before, other, behind, rfl, ?_⟩
      simp only [textOf_cons, List.length_append, Nat.add_assoc]

/-- Placed tokens lie inside the text of their pieces. -/
theorem position_of_mem_placed {token : Token ν} {position : Nat}
    (present : token ∈ placed position pieces) :
    position ≤ token.position ∧ token.position < position + (textOf pieces).length := by
  obtain ⟨before, piece, behind, rfl, rfl⟩ := exists_piece_of_mem_placed present
  obtain ⟨first, others, same, _⟩ := piece.isLexeme.visible
  simp only [textOf_append, textOf_cons, same, List.length_append, List.length_cons]
  omega

/-- Separated lexemes are the longest where they stand. -/
theorem allLongest_of_separated (separated : ∀ piece ∈ pieces.tail, piece.gap ≠ [])
    (blank : ∀ c ∈ gap, isBlank c = true) : AllLongest pieces gap := by
  induction pieces with
  | nil => trivial
  | cons piece rest inductionHypothesis =>
    refine ⟨longest_of_blank ?_, inductionHypothesis fun next present =>
      separated next (List.mem_of_mem_tail present)⟩
    intro c first
    cases rest with
    | nil => exact blank c (List.mem_of_mem_head? first)
    | cons next others =>
      obtain ⟨start, margin, same⟩ := List.exists_cons_of_ne_nil (separated next List.mem_cons_self)
      rw [textOf_cons, same] at first
      obtain rfl : start = c := Option.some.inj first
      exact next.blank start (by simp [same])

/-- The last character of some pieces is not blank. -/
theorem visible_of_getLast?_textOf :
    ∀ c ∈ (textOf pieces).getLast?, isBlank c = false := by
  induction pieces with
  | nil => exact nofun
  | cons piece rest inductionHypothesis =>
    intro c last
    rw [textOf_cons, List.getLast?_append, List.getLast?_append, Option.mem_def,
      Option.or_eq_some_iff, Option.or_eq_some_iff] at last
    rcases last with inRest | ⟨_, inLexeme | ⟨none, _⟩⟩
    · exact inductionHypothesis c inRest
    · exact piece.isLexeme.forall_visible c (List.mem_of_mem_getLast? inLexeme)
    · obtain ⟨first, others, same, _⟩ := piece.isLexeme.visible
      rw [same] at none
      cases List.getLast?_eq_none_iff.1 none

end Pieces

section Texts

variable {text other : String} {tokens : List (Token ν)} {pieces respaced : List (Piece ν)}
  {gap margin : List Char}

/-- The tokens of a text are those of its lexemes. -/
theorem Split.tokenize_eq (split : Split text pieces gap) :
    tokenize text = .ok (placed 0 pieces ++ [⟨.endOfInput, text.length⟩]) :=
  tokenize_of_pieces split.same split.longest split.blank

/-- A text is split into its lexemes, or it is refused at a character of its own. -/
theorem exists_split_or_misfit (ν : Type) [Number ν] (text : String) :
    (∃ (pieces : List (Piece ν)) (gap : List Char), Split text pieces gap) ∨
      ∃ fault : UnrecognizedCharacter, text.toList[fault.position]? = some fault.character ∧
        (tokenize text : Except _ (List (Token ν))) = .error fault := by
  obtain ⟨pieces, gap, rest, same, blank, longest, stops⟩ := exists_pieces (ν := ν) text.toList
  cases rest with
  | nil =>
    rw [List.append_nil] at same longest
    exact .inl ⟨pieces, gap, same, blank, longest⟩
  | cons c tail =>
    obtain ⟨visible, misfit⟩ := stops c rfl
    refine .inr ⟨_, ?_, tokenize_of_misfit same longest blank visible misfit⟩
    rw [same, List.getElem?_append_right (Nat.le_refl _), Nat.sub_self]
    rfl

/-- A text that the lexer accepts is split into its lexemes. -/
theorem exists_split (accepted : tokenize text = .ok tokens) :
    ∃ (pieces : List (Piece ν)) (gap : List Char), Split text pieces gap := by
  rcases exists_split_or_misfit ν text with split | ⟨fault, _, refused⟩
  · exact split
  · cases accepted.symm.trans refused

/-- Other blanks around the lexemes of a text give the same tokens, each where its lexeme lies
now. -/
theorem tokenize_respaced (accepted : tokenize text = .ok tokens) (split : Split text pieces gap)
    (spaced : Respaced pieces respaced) (blank : ∀ c ∈ margin, isBlank c = true)
    (same : other.toList = textOf respaced ++ margin) :
    ∃ others, tokenize other = .ok others ∧
      others = placed 0 respaced ++ [⟨.endOfInput, other.length⟩] ∧
      others.map Token.symbol = tokens.map Token.symbol ∧
      others = tokens.map (Token.moved (relocated tokens others)) := by
  obtain rfl := Except.ok.inj (accepted.symm.trans split.tokenize_eq)
  have symbols :
      (placed 0 respaced ++ [(⟨.endOfInput, other.length⟩ : Token ν)]).map Token.symbol =
        (placed 0 pieces ++ [(⟨.endOfInput, text.length⟩ : Token ν)]).map Token.symbol := by
    simp only [List.map_append, map_symbol_placed, map_symbol_eq spaced.lexemes, List.map_cons,
      List.map_nil]
  exact ⟨_, tokenize_of_pieces same (allLongest_of_separated spaced.separated blank) blank, rfl,
    symbols, (map_moved_relocated symbols (scan_ascending accepted).2).symm⟩

/-- How many blanks are in front of a text. -/
def leadingBlanks (text : String) : Nat :=
  (text.toList.takeWhile isBlank).length

/-- Pieces without the blanks in front of the first of them. -/
def unindented : List (Piece ν) → List (Piece ν)
  | [] => []
  | piece :: rest => { piece with gap := [], blank := nofun } :: rest

/-- What is left of pieces without the blanks in front starts with no blank. -/
theorem visible_of_head?_unindented :
    ∀ c ∈ (textOf (unindented pieces)).head?, isBlank c = false := by
  cases pieces with
  | nil => exact nofun
  | cons piece rest =>
    intro c isFirst
    obtain ⟨first, others, starts, visible⟩ := piece.isLexeme.visible
    obtain rfl : first = c := by simpa [unindented, starts] using isFirst
    exact visible

/-- Around its lexemes a text has blanks only. -/
theorem Split.exists_margins (split : Split text pieces gap) :
    ∃ front back, text.toList = front ++ textOf (unindented pieces) ++ back ∧
      (∀ c ∈ front, isBlank c = true) ∧ (∀ c ∈ back, isBlank c = true) ∧
      leadingBlanks text = front.length ∧
      placed 0 pieces =
        (placed 0 (unindented pieces)).map (Token.moved fun place => place + front.length) := by
  cases pieces with
  | nil =>
    have whole : text.toList = gap := split.same
    refine ⟨gap, [], by simp [whole, unindented, textOf], split.blank, nofun, ?_, rfl⟩
    rw [leadingBlanks, whole, List.takeWhile_eq_self_iff.2 split.blank]
  | cons piece rest =>
    obtain ⟨first, others, starts, visible⟩ := piece.isLexeme.visible
    have whole : text.toList =
        piece.gap ++ textOf (unindented (piece :: rest)) ++ gap := by
      simp [split.same, unindented]
    refine ⟨piece.gap, gap, whole, piece.blank, split.blank, ?_, ?_⟩
    · rw [leadingBlanks, whole, List.append_assoc, List.takeWhile_append_of_pos piece.blank]
      simp [unindented, starts, visible]
    · have behind : placed (piece.lexeme.length + piece.gap.length) rest =
          (placed piece.lexeme.length rest).map
            (Token.moved fun place => place + piece.gap.length) :=
        placed_add piece.lexeme.length piece.gap.length
      rw [placed, List.length_append, Nat.zero_add, Nat.zero_add, Nat.add_comm piece.gap.length,
        behind]
      simp [unindented, placed, Token.moved]

/-- Without the blanks at its ends a text has the same tokens, as many characters further to the
front as there were blanks, and the end of the input behind the last character that is left. -/
theorem tokenize_strip (accepted : tokenize text = .ok tokens) :
    tokenize (strip text) = .ok (tokens.map
      (Token.moved fun place => min (place - leadingBlanks text) (strip text).length)) := by
  obtain ⟨pieces, gap, split⟩ := exists_split accepted
  obtain rfl := Except.ok.inj (accepted.symm.trans split.tokenize_eq)
  obtain ⟨front, back, whole, frontBlank, backBlank, leading, shifted⟩ := split.exists_margins
  have left : (strip text).toList = textOf (unindented pieces) := by
    rw [strip, whole, String.toList_ofList]
    exact trim_append frontBlank backBlank visible_of_head?_unindented visible_of_getLast?_textOf
  have longest : AllLongest (unindented pieces) [] := by
    cases pieces with
    | nil => trivial
    | cons piece rest =>
      have all : AllLongest (piece :: rest) ([] ++ gap) := split.longest
      exact all.cut
  have size : text.length = front.length + (strip text).length + back.length := by
    rw [← String.length_toList, whole, ← String.length_toList, left, List.length_append,
      List.length_append]
  have inPieces : placed 0 (unindented pieces) = (placed 0 pieces).map
      (Token.moved fun place => min (place - leadingBlanks text) (strip text).length) := by
    rw [shifted, leading, List.map_map]
    refine (List.map_id _).symm.trans (List.map_congr_left fun token present => ?_)
    have inside := position_of_mem_placed present
    rw [← left, String.length_toList] at inside
    have same : token.position = min (token.position + front.length - front.length)
        ((strip text).length : Int) := by omega
    exact congrArg (Token.mk token.symbol) same
  have atEnd : ((strip text).length : Int) =
      min (text.length - leadingBlanks text : Int) (strip text).length := by omega
  rw [tokenize_of_pieces (by rw [left, List.append_nil]) longest nofun, inPieces, List.map_append,
    List.map_cons, List.map_nil, Token.moved, ← atEnd]

end Texts

end Token

end Tangent
