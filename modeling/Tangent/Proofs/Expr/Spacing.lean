import Tangent.Expr.Reader
import Tangent.Number.Binary64
import Tangent.Proofs.Grammar.Positions
import Tangent.Proofs.Token.Spacing

/-!
# Formulas with other blanks

The blanks of a formula text only say where its tokens lie. The parser copies these places and looks
at nothing but the symbols, so texts with the same lexemes are read as the same tree, or refused at
the same token for the same reason.
-/

namespace Tangent.Expr

open Text Token

variable {ν : Type} [Number ν] {dialect : Dialect ν} {text other : String} {tokens : List (Token ν)}

/-- A text is read as its tokens are parsed. -/
theorem read_of_tokenize (lexed : tokenize text = .ok tokens) :
    read dialect text = (parse dialect tokens).mapError .malformed := by
  rw [read, lexed]
  rfl

/-- A text whose tokens lie elsewhere is read as the same tree, or refused for the same reason where
the token lies now. -/
theorem read_of_moved {move : Int → Int}
    (lexed : tokenize other = .ok (tokens.map (Token.moved move))) :
    read dialect other =
      ((parse dialect tokens).mapError (ParseFault.moved move)).mapError .malformed := by
  rw [read_of_tokenize lexed, parse_moved]

/-- Spacing does not matter. Let a text be split into tokens, and so into lexemes with blanks
between them. With other blanks around the lexemes, at least one between two of them, it has tokens
of the same symbols, each where its lexeme starts now, and the end of the input behind the last
character. It is read as the same tree as before, or refused for the same reason at the place that
the token has now. The same is true of the text without the blanks at its ends, where tokens lie as
many characters further to the front as there were blanks. -/
theorem read_respaced (dialect : Dialect ν) (accepted : tokenize text = .ok tokens) :
    read dialect text = (parse dialect tokens).mapError .malformed ∧
    (∃ (pieces : List (Piece ν)) (gap : List Char), Split text pieces gap) ∧
    (∀ (pieces : List (Piece ν)) (gap : List Char), Split text pieces gap →
      tokens = placed 0 pieces ++ [⟨.endOfInput, text.length⟩] ∧
      ∀ (respaced : List (Piece ν)) (margin : List Char) (other : String),
        Respaced pieces respaced → (∀ c ∈ margin, isBlank c = true) →
        other.toList = textOf respaced ++ margin →
          ∃ others, tokenize other = .ok others ∧
            others = placed 0 respaced ++ [⟨.endOfInput, other.length⟩] ∧
            others.map Token.symbol = tokens.map Token.symbol ∧
            read dialect other = ((parse dialect tokens).mapError
              (ParseFault.moved (relocated tokens others))).mapError .malformed) ∧
    let shift (place : Int) : Int := min (place - leadingBlanks text) (strip text).length
    tokenize (strip text) = .ok (tokens.map (Token.moved shift)) ∧
      read dialect (strip text) =
        ((parse dialect tokens).mapError (ParseFault.moved shift)).mapError .malformed := by
  refine ⟨read_of_tokenize accepted, exists_split accepted, fun pieces gap split => ⟨?_, ?_⟩,
    tokenize_strip accepted, read_of_moved (tokenize_strip accepted)⟩
  · exact Except.ok.inj (accepted.symm.trans split.tokenize_eq)
  · intro respaced margin other spaced blank same
    obtain ⟨others, lexed, placedOthers, symbols, moved⟩ :=
      tokenize_respaced accepted split spaced blank same
    refine ⟨others, lexed, placedOthers, symbols, read_of_moved ?_⟩
    rw [← moved]
    exact lexed

/-- A mark without digits behind a number is a name of its own, with blanks between them or not, and
the fault about it moves with it. -/
theorem read_respaced_of_lone_mark :
    let dialect : Dialect Float := .standard
    let tokens : List (Token Float) := [⟨.number 2, 1⟩, ⟨.identifier "e", 2⟩, ⟨.endOfInput, 4⟩]
    let two : Lexeme ['2'] (.number 2 : Symbol Float) :=
      lexeme_of_lexeme? (rfl : lexeme? ['2'] = some (.number (2 : Float), 1))
    let mark : Lexeme ['e'] (.identifier "e" : Symbol Float) :=
      lexeme_of_lexeme? (rfl : lexeme? ['e'] = some ((.identifier "e" : Symbol Float), 1))
    let blanks : ∀ c ∈ ['\t', '\n'], isBlank c = true :=
      List.forall_mem_cons.2 ⟨rfl, List.forall_mem_singleton.2 rfl⟩
    let pieces : List (Piece Float) :=
      [⟨[' '], ['2'], .number 2, List.forall_mem_singleton.2 rfl, two⟩,
        ⟨[], ['e'], .identifier "e", nofun, mark⟩]
    let respaced : List (Piece Float) :=
      [⟨[], ['2'], .number 2, nofun, two⟩,
        ⟨['\t', '\n'], ['e'], .identifier "e", blanks, mark⟩]
    tokenize " 2e " = .ok tokens ∧ Split " 2e " pieces [' '] ∧ Respaced pieces respaced ∧
      tokenize "2\t\ne" = .ok (placed 0 respaced ++ [⟨.endOfInput, 4⟩]) ∧
      read dialect " 2e " =
        .error (.malformed (.unexpected .continuation (.identifier "e") 2)) ∧
      read dialect "2\t\ne" =
        .error (.malformed (.unexpected .continuation (.identifier "e") 3)) ∧
      read dialect (strip " 2e ") =
        .error (.malformed (.unexpected .continuation (.identifier "e") 1)) := by
  intro dialect tokens two mark blanks pieces respaced
  have accepted : tokenize " 2e " = .ok tokens := rfl
  have refused : parse dialect tokens =
      .error (.unexpected .continuation (.identifier "e") 2) := rfl
  have number : lexeme? ['2', 'e', ' '] = some (.number (2 : Float), 1) := rfl
  have atSpace : ∀ c ∈ [' '].head?, isBlank c = true := by
    rintro _ ⟨⟩
    rfl
  have split : Split " 2e " pieces [' '] :=
    ⟨rfl, List.forall_mem_singleton.2 rfl, longest_of_lexeme? number, longest_of_blank atSpace,
      trivial⟩
  have spaced : Respaced pieces respaced := ⟨rfl, by simp [respaced]⟩
  obtain ⟨readText, _, onPieces, _, readStripped⟩ := read_respaced dialect accepted
  obtain ⟨_, onSpacing⟩ := onPieces pieces [' '] split
  obtain ⟨others, lexed, rfl, _, readSpaced⟩ :=
    onSpacing respaced [] "2\t\ne" spaced nofun rfl
  refine ⟨accepted, split, spaced, lexed, ?_, ?_, ?_⟩
  · rw [readText, refused]
    rfl
  · rw [readSpaced, refused]
    rfl
  · rw [readStripped, refused]
    rfl

end Tangent.Expr
