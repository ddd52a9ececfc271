import Tangent.Console
import Tangent.Number.Binary64
import Tangent.Proofs.Session.Closure
import Tangent.Proofs.Token.Coverage
import Tangent.Proofs.Token.Spacing

/-!
# Places of faults

What a fault says about its place is true of the formula without the blanks at its ends: the first
character that starts no token stands there, or the first token without a place, or the name of the
function that this token is noticed at, or the formula ends there. So the console can always show
the formula again with a mark under the place, or just behind the formula.
-/

namespace Tangent

open Text Token

variable {ν : Type} [Number ν]

namespace Token

/-- Whether a symbol is found at a place of a text: there starts the lexeme of that symbol among
those that the text is split into, or the text ends there and the symbol is the end of the input. -/
inductive StandsAt (text : String) : Symbol ν → Int → Prop where
  | lexeme {before behind : List (Piece ν)} {piece : Piece ν} {gap : List Char}
      (split : Split text (before ++ piece :: behind) gap) :
      StandsAt text piece.symbol (textOf before ++ piece.gap).length
  | finish : StandsAt text .endOfInput text.length

section Texts

variable {text : String} {tokens : List (Token ν)} {token : Token ν} {symbol : Symbol ν}
  {position : Int}

/-- The tokens of a text stand where they are said to. -/
theorem standsAt_of_tokenize (accepted : tokenize text = .ok tokens) (present : token ∈ tokens) :
    StandsAt text token.symbol token.position := by
  obtain ⟨pieces, gap, split⟩ := exists_split accepted
  obtain rfl := Except.ok.inj (accepted.symm.trans split.tokenize_eq)
  rcases List.mem_append.1 present with inPieces | atEnd
  · obtain ⟨before, piece, behind, rfl, rfl⟩ := exists_piece_of_mem_placed inPieces
    rw [Nat.zero_add]
    exact .lexeme split
  · obtain rfl := List.mem_singleton.1 atEnd
    exact .finish

/-- The places of symbols lie in the text or at its end. -/
theorem StandsAt.position_le (stands : StandsAt text symbol position) :
    0 ≤ position ∧ position ≤ text.length := by
  cases stands with
  | @lexeme before behind piece gap split =>
    have size := congrArg List.length split.same
    rw [String.length_toList] at size
    simp only [textOf_append, textOf_cons, List.length_append] at size ⊢
    omega
  | finish => omega

/-- The end of the input is found at the end only. -/
theorem StandsAt.position_eq (stands : StandsAt text (.endOfInput : Symbol ν) position) :
    position = text.length := by
  generalize same : (.endOfInput : Symbol ν) = symbol at stands
  cases stands with
  | @lexeme before behind piece gap split =>
    obtain ⟨_, lexeme, _, _, isLexeme⟩ := piece
    subst same
    cases isLexeme
  | finish => rfl

end Texts

end Token

namespace Fault

/-- Whether a place in a formula is the one that a fault speaks of, or there is none where it speaks
of none, for faults over which a formula is refused. -/
inductive PointsInto (dialect : Dialect ν) (text : String) : Fault ν → Option Int → Prop where
  | emptyInput (empty : text = "") : PointsInto dialect text .emptyInput (some 0)
  | inputTooLong {limit : Int} (long : limit < text.length) :
      PointsInto dialect text (.inputTooLong limit) none
  /-- What stands in front of the character is split into tokens, and the character is no blank and
  starts none. -/
  | unrecognized {fault : UnrecognizedCharacter} {pieces : List (Piece ν)} {gap rest : List Char}
      (same : text.toList = textOf pieces ++ gap ++ fault.character :: rest)
      (place : fault.position = (textOf pieces ++ gap).length)
      (blank : ∀ c ∈ gap, isBlank c = true)
      (longest : AllLongest pieces (gap ++ fault.character :: rest))
      (visible : isBlank fault.character = false)
      (misfit : ∀ lexeme (symbol : Symbol ν), Lexeme lexeme symbol →
        ¬lexeme <+: fault.character :: rest)
      (accepted : tokenize (String.ofList (text.toList.take fault.position)) =
        .ok (placed 0 pieces ++ [⟨.endOfInput, fault.position⟩])) :
      PointsInto dialect text (.unrecognized fault) (some fault.position)
  /-- The token that was found is the first one without a place. -/
  | unexpected {tokens : List (Token ν)} {expectation : Expectation} {found : Symbol ν}
      {position : Int} (tokenized : tokenize text = .ok tokens)
      (blames : (ParseFault.unexpected expectation found position).Blames dialect .start tokens)
      (stands : StandsAt text found position) :
      PointsInto dialect text (.malformed (.unexpected expectation found position)) (some position)
  /-- The first token without a place is the parenthesis behind the name. -/
  | unknownFunction {tokens : List (Token ν)} {name : String} {position : Int}
      (tokenized : tokenize text = .ok tokens)
      (blames : (ParseFault.unknownFunction name position).Blames dialect .start tokens)
      (stands : StandsAt text (.identifier name : Symbol ν) position) :
      PointsInto dialect text (.malformed (.unknownFunction name position)) (some position)
  /-- The first token without a place is the parenthesis that closes the arguments of the name. -/
  | wrongArgumentCount {tokens : List (Token ν)} {function : Elementary} {count : Nat}
      {position : Int} (tokenized : tokenize text = .ok tokens)
      (blames :
        (ParseFault.wrongArgumentCount function count position).Blames dialect .start tokens)
      (stands : StandsAt text (.identifier function.name : Symbol ν) position) :
      PointsInto dialect text (.malformed (.wrongArgumentCount function count position))
        (some position)
  | unboundVariable {name : String} :
      PointsInto dialect text (.unevaluated (.unboundVariable name)) none

namespace PointsInto

variable {dialect : Dialect ν} {text : String} {fault : Fault ν} {place : Option Int}
  {position : Int}

/-- Only a formula that is too long or has another variable is refused without a place. -/
theorem eq_none_iff (points : fault.PointsInto dialect text place) :
    place = none ↔
      fault.kind? = some .inputTooLong ∨ fault.kind? = some .unboundVariable := by
  cases points with
  | unexpected stands =>
    refine iff_of_false nofun ?_
    rw [kind?]
    unfold ParseFault.kind?
    split <;> simp
  | _ => simp [kind?, ParseFault.kind?, EvaluationFault.kind?]

/-- A place lies in the formula or at its end. -/
theorem position_le (points : fault.PointsInto dialect text (some position)) :
    0 ≤ position ∧ position ≤ text.length := by
  cases points with
  | emptyInput empty => simp [empty]
  | unrecognized same place =>
    have size := congrArg List.length same
    rw [String.length_toList, List.length_append, List.length_cons] at size
    omega
  | unexpected _ _ stands | unknownFunction _ _ stands | wrongArgumentCount _ _ stands =>
    exact stands.position_le

end PointsInto

end Fault

namespace Expr

/-- A text that is not read is refused at a place of its own. -/
theorem pointsInto_of_read {dialect : Dialect ν} {text : String} {fault : Fault ν}
    (rejected : read dialect text = .error fault) :
    fault.PointsInto dialect text fault.position? := by
  rcases rejected_of_read rejected with
    ⟨unrecognized, refused, rfl⟩ | ⟨tokens, malformed, tokenized, refused, rfl⟩
  · obtain ⟨pieces, gap, rest, same, place, blank, longest, visible, misfit, accepted⟩ :=
      exists_misfit (ν := ν) refused
    exact .unrecognized same place blank longest visible misfit accepted
  · have blames := blames_of_parse (.of_tokenize tokenized) refused
    cases malformed with
    | unexpected expectation found position =>
      exact .unexpected tokenized blames (standsAt_of_tokenize tokenized blames.mem_of_unexpected)
    | unknownFunction name position =>
      exact .unknownFunction tokenized blames
        (standsAt_of_tokenize tokenized blames.mem_of_unknownFunction)
    | wrongArgumentCount function count position =>
      exact .wrongArgumentCount tokenized blames
        (standsAt_of_tokenize tokenized blames.mem_of_wrongArgumentCount)
    | unterminated => cases blames

end Expr

namespace Session

variable {settings : Settings ν} {entered asked : Option String} {text : String} {fault : Fault ν}

/-- A text that is not accepted is empty or too long. -/
theorem pointsInto_of_accepted (rejected : accepted settings entered = .error fault) :
    fault.PointsInto settings.dialect (strip (entered.getD "")) fault.position? := by
  cases entered with
  | none =>
    cases rejected
    exact .emptyInput rfl
  | some given =>
    dsimp only [accepted] at rejected
    split at rejected
    · next empty =>
      cases rejected
      exact .emptyInput (String.isEmpty_iff.1 empty)
    · split at rejected
      · next long =>
        cases rejected
        exact .inputTooLong long
      · cases rejected

/-- A formula is refused at a place of what was entered, without the blanks at its ends. -/
theorem pointsInto_of_build (rejected : build settings entered asked = .error fault) :
    fault.PointsInto settings.dialect (strip (entered.getD "")) fault.position? := by
  rcases rejected_of_build rejected with
    atText | ⟨text, textAccepted, atFormula | ⟨formula, atCheck⟩⟩
  · exact pointsInto_of_accepted atText
  · obtain ⟨given, rfl, rfl⟩ := exists_of_accepted textAccepted
    exact Expr.pointsInto_of_read atFormula
  · rw [checkVariables] at atCheck
    split at atCheck
    · cases atCheck
      exact .unboundVariable
    · cases atCheck

end Session

namespace Console

variable {settings : Settings ν} {entered : String} {fault : Fault ν}

/-- A mark stands under a place of a text, or just behind the text. -/
theorem caretLine?_eq_some {text : String} {column : Nat} (inside : column ≤ text.length) :
    caretLine? text (some (column : Int)) =
      some (margin ++ String.ofList (List.replicate column ' ') ++ "^") := by
  rw [caretLine?, if_neg (by omega), Int.toNat_natCast]

/-- The console shows a rejected formula with a mark under the place of the fault. -/
theorem submit_of_error {column : Nat} (console : Console ν)
    (rejected : Session.build settings (some entered) none = .error fault)
    (located : fault.position? = some (column : Int)) (inside : column ≤ (strip entered).length) :
    (console.submit settings entered).1 =
      faultLine fault :: (margin ++ strip entered) ::
        (margin ++ String.ofList (List.replicate column ' ') ++ "^") ::
          keptLines console.workspace.session := by
  simp only [submit, Workspace.submit_of_error rejected, markLines, located,
    caretLine?_eq_some inside, List.cons_append, List.nil_append]

/-- The places of faults are in the formula without the blanks at its ends, where nothing entered
counts as an empty formula. Over whatever a formula is refused, for any variable asked for, its
fault speaks truly of its place: it is that of the first character that starts no token, of the
first token without a place, or of the name of the function that is unknown or has a wrong number
of arguments, and it is the end where the end of the input was found. Only a formula that is too
long or has another variable is refused without a place, and all other places are in the formula or
at its end. So the console shows every formula that is refused at a place again, with a mark under
the character there or just behind the formula. -/
theorem submit_marks_place (settings : Settings ν) :
    (∀ (entered asked : Option String) (fault : Fault ν),
      Session.build settings entered asked = .error fault →
        let text := strip (entered.getD "")
        fault.PointsInto settings.dialect text fault.position? ∧
        (fault.position? = none ↔
          fault.kind? = some .inputTooLong ∨ fault.kind? = some .unboundVariable) ∧
        (∀ position, fault.position? = some position → 0 ≤ position ∧ position ≤ text.length) ∧
        ∀ expectation position,
          fault = .malformed (.unexpected expectation .endOfInput position) →
            fault.position? = some (text.length : Int)) ∧
    ∀ (console : Console ν) (entered : String) (fault : Fault ν) (position : Int),
      Session.build settings (some entered) none = .error fault →
      fault.position? = some position →
        ∃ column : Nat, position = column ∧ column ≤ (strip entered).length ∧
          (console.submit settings entered).1 =
            faultLine fault :: (margin ++ strip entered) ::
              (margin ++ String.ofList (List.replicate column ' ') ++ "^") ::
                keptLines console.workspace.session := by
  constructor
  · intro entered asked fault rejected text
    have points := Session.pointsInto_of_build rejected
    refine ⟨points, points.eq_none_iff, fun position located => ?_, ?_⟩
    · rw [located] at points
      exact points.position_le
    · rintro expectation position rfl
      cases points with
      | unexpected _ _ stands => exact congrArg some stands.position_eq
  · intro console entered fault position rejected located
    have points := Session.pointsInto_of_build rejected
    rw [located] at points
    obtain ⟨positive, inside⟩ := points.position_le
    obtain ⟨column, rfl⟩ := Int.eq_ofNat_of_zero_le positive
    have inText : column ≤ (strip entered).length := Int.ofNat_le.1 inside
    exact ⟨column, rfl, inText, submit_of_error console rejected located inText⟩

/-- A formula that ends too early is marked behind its last character, one with a character of no
token under that, and a call with too many arguments at the name of its function. -/
theorem submit_marks_place_of_open_group :
    let settings : Settings Float := .standard
    let console : Console Float := ⟨.empty, settings.defaultPoints, false, .unset, none, true⟩
    (∃ fault, Session.build settings (some "\t(x + ") none = .error fault ∧
      fault.position? = some 4 ∧ fault.PointsInto settings.dialect "(x +" (some 4) ∧
      (console.submit settings "\t(x + ").1 =
        [faultLine fault, "    (x +", "        ^"]) ∧
    (∃ fault, Session.build settings (some " x + #2 # ") none = .error fault ∧
      fault.position? = some 4 ∧ fault.PointsInto settings.dialect "x + #2 #" (some 4) ∧
      (console.submit settings " x + #2 # ").1 =
        [faultLine fault, "    x + #2 #", "        ^"]) ∧
    ∃ fault, Session.build settings (some "2*sin(x, 3) + sin(x, x) ") (some "x") = .error fault ∧
      fault.position? = some 2 ∧
      fault.PointsInto settings.dialect "2*sin(x, 3) + sin(x, x)" (some 2) := by
  intro settings console
  have unfinished : Session.build settings (some "\t(x + ") none =
      .error (.malformed (.unexpected .expression .endOfInput 4)) := rfl
  have strange : Session.build settings (some " x + #2 # ") none =
      .error (.unrecognized ⟨'#', 4⟩) := rfl
  have tooMany : Session.build settings (some "2*sin(x, 3) + sin(x, x) ") (some "x") =
      .error (.malformed (.wrongArgumentCount .sin 2 2)) := rfl
  obtain ⟨onBuild, onConsole⟩ := submit_marks_place settings
  obtain ⟨column, same, _, lines⟩ := onConsole console "\t(x + " _ 4 unfinished rfl
  obtain rfl : 4 = column := Int.ofNat.inj same
  obtain ⟨column, same, _, strangeLines⟩ := onConsole console " x + #2 # " _ 4 strange rfl
  obtain rfl : 4 = column := Int.ofNat.inj same
  exact ⟨⟨_, unfinished, rfl, (onBuild _ _ _ unfinished).1, lines⟩,
    ⟨_, strange, rfl, (onBuild _ _ _ strange).1, strangeLines⟩,
    _, tooMany, rfl, (onBuild _ _ _ tooMany).1⟩

end Console

end Tangent
