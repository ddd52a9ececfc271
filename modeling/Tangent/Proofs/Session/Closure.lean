import Tangent.Proofs.Expr.Read
import Tangent.Proofs.Grammar.Refusal
import Tangent.Proofs.Number.Negation
import Tangent.Session

/-!
# Sessions are closed

A formula is refused for what was entered, or it has a session: once a formula is read and has no
variable but its own, nothing that follows can fail. The trees of a session are all made of accepted
calls, of the one variable, and of constants that stand for numbers, so that they have values at
every point.
-/

namespace Tangent

variable {ν : Type}

/-- Whether a fault refuses a formula: nothing or too much was entered, the text is no formula, or
the formula has another variable. -/
def Fault.isRefusal : Fault ν → Bool
  | emptyInput => true
  | inputTooLong _ => true
  | unrecognized _ => true
  | malformed .unterminated => false
  | malformed _ => true
  | unevaluated (.unboundVariable _) => true
  | _ => false

/-- Refusals are of a kind. -/
theorem Fault.isSome_kind? {fault : Fault ν} (refused : fault.isRefusal = true) :
    fault.kind?.isSome = true := by
  unfold Fault.isRefusal at refused
  split at refused
  · rfl
  · rfl
  · rfl
  · cases refused
  · next fault _ =>
    cases fault with
    | unexpected expectation found position =>
      rw [kind?]
      unfold ParseFault.kind?
      split <;> simp_all
    | unterminated => contradiction
    | _ => rfl
  · rfl
  · cases refused

namespace Vocabulary

section Variable

variable [Number ν] (name : String)

/-- The variable of a formula and all numbers that stand for something. -/
def defined : Vocabulary ν where
  IsVariable := (· = name)
  IsConstant value := Number.isUndefined value = false

/-- The variable of a formula and all finite numbers. -/
def finite : Vocabulary ν where
  IsVariable := (· = name)
  IsConstant value := Arithmetic.isFinite value = true

theorem hasFinite_finite : (finite name : Vocabulary ν).HasFinite :=
  fun _ isFinite => isFinite

variable [Number.Coherent ν]

theorem hasFinite_defined : (defined name : Vocabulary ν).HasFinite :=
  fun _ => Number.isUndefined_eq_false

theorem hasWholes_finite [Number.Lawful ν] : (finite name : Vocabulary ν).HasWholes :=
  fun _ => Number.isFinite_ofNat

theorem hasWholes_defined [Number.Lawful ν] : (defined name : Vocabulary ν).HasWholes :=
  fun _ small => Number.isUndefined_eq_false (Number.isFinite_ofNat small)

end Variable

end Vocabulary

namespace Expr

/-- A text is refused by the lexer, or its tokens are by the parser. -/
theorem rejected_of_read [Number ν] {dialect : Dialect ν} {source : String} {fault : Fault ν}
    (rejected : read dialect source = .error fault) :
    (∃ unrecognized, (Token.tokenize source : Except _ (List (Token ν))) = .error unrecognized ∧
      fault = .unrecognized unrecognized) ∨
    ∃ (tokens : List (Token ν)) (malformed : ParseFault ν), Token.tokenize source = .ok tokens ∧
      parse dialect tokens = .error malformed ∧ fault = .malformed malformed := by
  rcases bind_eq_error rejected with atTokens | ⟨tokens, tokenized, atTree⟩
  · obtain ⟨unrecognized, refused, rfl⟩ := mapError_eq_error_iff.1 atTokens
    exact .inl ⟨unrecognized, refused, rfl⟩
  · obtain ⟨malformed, refused, rfl⟩ := mapError_eq_error_iff.1 atTree
    exact .inr ⟨tokens, malformed, mapError_eq_ok_iff.1 tokenized, refused, rfl⟩

/-- A text that is not read is refused. -/
theorem isRefusal_of_read [Number ν] {dialect : Dialect ν} {source : String} {fault : Fault ν}
    (rejected : read dialect source = .error fault) : fault.isRefusal = true := by
  rcases rejected_of_read rejected with
    ⟨unrecognized, _, rfl⟩ | ⟨tokens, malformed, tokenized, refused, rfl⟩
  · rfl
  · cases blames_of_parse (.of_tokenize tokenized) refused <;> rfl

end Expr

namespace Session

variable {settings : Settings ν} {entered asked : Option String} {text : String}
  {formula : Expr ν} {fault : Fault ν} {session : Session ν}

/-- The trees of a session. -/
def trees (session : Session ν) : List (Expr ν) :=
  [session.formula, session.derivative, session.simplified]

/-- An accepted text is what was entered, without the blanks around it. -/
theorem exists_of_accepted (succeeded : accepted settings entered = .ok text) :
    ∃ given, entered = some given ∧ text = Text.strip given := by
  cases entered with
  | none => cases succeeded
  | some given =>
    refine ⟨given, rfl, ?_⟩
    dsimp only [accepted] at succeeded
    split at succeeded
    · cases succeeded
    · split at succeeded
      · cases succeeded
      · exact (Except.ok.inj succeeded).symm

theorem isRefusal_of_accepted (rejected : accepted settings entered = .error fault) :
    fault.isRefusal = true := by
  cases entered with
  | none => cases rejected; rfl
  | some given =>
    dsimp only [accepted] at rejected
    split at rejected
    · cases rejected; rfl
    · split at rejected
      · cases rejected; rfl
      · cases rejected

/-- The check passes formulas without another variable. -/
theorem checkVariables_eq_ok_iff {name : String} :
    checkVariables name formula = .ok () ↔ ∀ other ∈ formula.names, other = name := by
  rw [checkVariables]
  split
  · next other found =>
    refine iff_of_false nofun fun only => ?_
    have different := List.find?_some found
    have listed := Expr.mem_sortedNames.1 (List.mem_of_find?_eq_some found)
    simp [only other listed] at different
  · next absent =>
    refine iff_of_true rfl fun other inside => ?_
    simpa using List.find?_eq_none.1 absent other (Expr.mem_sortedNames.2 inside)

theorem isRefusal_of_checkVariables {name : String}
    (rejected : checkVariables name formula = .error fault) : fault.isRefusal = true := by
  rw [checkVariables] at rejected
  split at rejected
  · cases rejected; rfl
  · cases rejected

variable [Number ν]

/-- What is known of a session that was built: each part comes from the one before it. -/
structure Built (settings : Settings ν) (entered asked : Option String) (session : Session ν) :
    Prop where
  variableName : session.variableName = chosenVariable settings asked
  text : accepted settings entered = .ok session.text
  formula : Expr.read settings.dialect session.text = .ok session.formula
  names : ∀ name ∈ session.formula.names, name = session.variableName
  derivative : session.formula.derivative session.variableName = .ok session.derivative
  simplified : Expr.Simplified.tree <$> session.derivative.simplify settings.maxPasses.toNat =
    .ok session.simplified
  derivativeText : session.derivativeText = session.simplified.text

/-- Building gives a session as described. -/
theorem built_of_build (succeeded : build settings entered asked = .ok session) :
    Built settings entered asked session := by
  obtain ⟨text, textAccepted, afterText⟩ := exists_of_bind_eq_ok succeeded
  obtain ⟨formula, formulaRead, afterFormula⟩ := exists_of_bind_eq_ok afterText
  obtain ⟨_, checked, afterCheck⟩ := exists_of_bind_eq_ok afterFormula
  obtain ⟨derivative, derived, afterDerivative⟩ := exists_of_bind_eq_ok afterCheck
  obtain ⟨simplified, finished, returned⟩ := exists_of_bind_eq_ok afterDerivative
  cases returned
  exact ⟨rfl, textAccepted, formulaRead, checkVariables_eq_ok_iff.1 checked,
    mapError_eq_ok_iff.1 derived,
    map_eq_ok_iff.2 ⟨simplified, mapError_eq_ok_iff.1 finished, rfl⟩, rfl⟩

/-- Building puts together what its steps give. -/
theorem build_eq_ok {derivative : Expr ν} {simplified : Expr.Simplified ν}
    (textAccepted : accepted settings entered = .ok text)
    (formulaRead : Expr.read settings.dialect text = .ok formula)
    (only : ∀ name ∈ formula.names, name = chosenVariable settings asked)
    (derived : formula.derivative (chosenVariable settings asked) = .ok derivative)
    (finished : derivative.simplify settings.maxPasses.toNat = .ok simplified) :
    build settings entered asked = .ok ⟨text, formula, derivative, simplified.tree,
      simplified.tree.text, chosenVariable settings asked⟩ := by
  have checked := checkVariables_eq_ok_iff.2 only
  simp only [build, textAccepted, formulaRead, checked, derived, finished, Except.mapError, bind,
    Except.bind, pure, Except.pure]

/-- A formula that is read and has no variable but its own is never refused. -/
theorem exists_build (textAccepted : accepted settings entered = .ok text)
    (formulaRead : Expr.read settings.dialect text = .ok formula)
    (only : ∀ name ∈ formula.names, name = chosenVariable settings asked) :
    ∃ session, build settings entered asked = .ok session := by
  have isOver := Expr.over_everything_iff.2 (Expr.callsAccepted_of_read formulaRead)
  obtain ⟨derivative, derived, derivativeOver⟩ :=
    Expr.exists_derivative_over (chosenVariable settings asked) Vocabulary.hasWholes_everything
      isOver
  obtain ⟨simplified, finished, _⟩ :=
    Expr.exists_simplify_accepted derivativeOver.accepted settings.maxPasses.toNat
  exact ⟨_, build_eq_ok textAccepted formulaRead only derived finished⟩

/-- A formula is refused for its length, as it is read, or for its variables. -/
theorem rejected_of_build (rejected : build settings entered asked = .error fault) :
    accepted settings entered = .error fault ∨
      ∃ text, accepted settings entered = .ok text ∧
        (Expr.read settings.dialect text = .error fault ∨
          ∃ formula : Expr ν, checkVariables (chosenVariable settings asked) formula =
            .error fault) := by
  rcases bind_eq_error rejected with atText | ⟨text, textAccepted, afterText⟩
  · exact .inl atText
  refine .inr ⟨text, textAccepted, ?_⟩
  rcases bind_eq_error afterText with atFormula | ⟨formula, formulaRead, afterFormula⟩
  · exact .inl atFormula
  rcases bind_eq_error afterFormula with atCheck | ⟨_, checked, _⟩
  · exact .inr ⟨formula, atCheck⟩
  -- Behind the check of the variables nothing can fail.
  · obtain ⟨session, succeeded⟩ :=
      exists_build textAccepted formulaRead (checkVariables_eq_ok_iff.1 checked)
    cases rejected.symm.trans succeeded

/-- Whatever refuses a formula refuses it for what was entered. -/
theorem isRefusal_of_build (rejected : build settings entered asked = .error fault) :
    fault.isRefusal = true := by
  rcases rejected_of_build rejected with atText | ⟨text, _, atFormula | ⟨formula, atCheck⟩⟩
  · exact isRefusal_of_accepted atText
  · exact Expr.isRefusal_of_read atFormula
  · exact isRefusal_of_checkVariables atCheck

namespace Built

variable {vocabulary : Vocabulary ν}

/-- The trees of a session are over every vocabulary that its formula is over, if that has the
numbers of the rules and the results of folding. -/
theorem trees_over (built : Built settings entered asked session)
    (wholes : vocabulary.HasWholes) (finite : vocabulary.HasFinite)
    (formulaOver : session.formula.Over vocabulary) :
    ∀ tree ∈ session.trees, tree.Over vocabulary := by
  obtain ⟨derivative, derived, derivativeOver⟩ :=
    Expr.exists_derivative_over session.variableName wholes formulaOver
  obtain rfl : session.derivative = derivative :=
    Except.ok.inj (built.derivative.symm.trans derived)
  obtain ⟨simplified, finished, simplifiedOver⟩ :=
    Expr.exists_simplify_over wholes finite derivativeOver settings.maxPasses.toNat
  have same : session.simplified = simplified.tree :=
    Except.ok.inj (built.simplified.symm.trans (map_eq_ok_iff.2 ⟨simplified, finished, rfl⟩))
  simp [trees, formulaOver, derivativeOver, same, simplifiedOver]

/-- The formula of a session has no variable but its own, and its constants are literals of the
text and named constants. -/
theorem formula_over (built : Built settings entered asked session)
    (only : vocabulary.IsVariable session.variableName)
    (named : ∀ name value, settings.dialect.constant? name = some value →
      vocabulary.IsConstant value)
    (literals : ∀ tokens, Token.tokenize session.text = .ok tokens → ∀ value position,
      ⟨.number value, position⟩ ∈ tokens → vocabulary.IsConstant value) :
    session.formula.Over vocabulary := by
  let anyName : Vocabulary ν := ⟨fun _ => True, vocabulary.IsConstant⟩
  have isOver : session.formula.Over anyName :=
    Expr.over_of_read built.formula named (fun _ _ => trivial) literals
  refine ⟨isOver.accepted, fun name inside => ?_, isOver.constants⟩
  rwa [built.names name inside]

/-- The trees of a session have values at every point. -/
theorem exists_evaluate (built : Built settings entered asked session) {tree : Expr ν}
    (present : tree ∈ session.trees) (point : ν) :
    ∃ value, tree.evaluate (.single session.variableName point) = .ok value := by
  let vocabulary : Vocabulary ν := ⟨(· = session.variableName), fun _ => True⟩
  have formulaOver : session.formula.Over vocabulary :=
    built.formula_over rfl (fun _ _ _ => trivial) fun _ _ _ _ _ => trivial
  have treeOver : tree.Over vocabulary :=
    built.trees_over (fun _ _ => trivial) (fun _ _ => trivial) formulaOver tree present
  exact Expr.exists_evaluate (fun name inside => ⟨point, if_pos (treeOver.names name inside)⟩)
    treeOver.accepted

/-- The formula of a session has a value at every point. -/
theorem exists_valueAt (built : Built settings entered asked session) (point : ν) :
    ∃ value, session.valueAt point = .ok value := by
  have present : session.formula ∈ session.trees := by simp [trees]
  obtain ⟨value, known⟩ := built.exists_evaluate present point
  exact ⟨value, mapError_eq_ok_iff.2 known⟩

/-- The formula of a session has a slope at every point. -/
theorem exists_slopeAt (built : Built settings entered asked session) (point : ν) :
    ∃ slope, session.slopeAt point = .ok slope := by
  have present : session.simplified ∈ session.trees := by simp [trees]
  obtain ⟨slope, known⟩ := built.exists_evaluate present point
  exact ⟨slope, mapError_eq_ok_iff.2 known⟩

end Built

/-- A formula is refused for what was entered, or it has a session, and a formula that is read and
has no variable but its own is not refused. In the trees of a session all calls are accepted, the
variable is the only one, and all constants stand for something, and for finite numbers if the
literals of the text do; so the formula and its derivative have values at every point. The numbers
that limit lengths, nesting and passes may be any. -/
theorem build_closed [Number.Lawful ν] [Number.Coherent ν] (settings : Settings ν)
    (named : ∀ name value, settings.dialect.constant? name = some value →
      Arithmetic.isFinite value = true)
    (entered asked : Option String) :
    (∀ fault, build settings entered asked = .error fault → fault.isRefusal = true) ∧
    (∀ text formula, accepted settings entered = .ok text →
      Expr.read settings.dialect text = .ok formula →
      (∀ name ∈ formula.names, name = chosenVariable settings asked) →
        ∃ session, build settings entered asked = .ok session) ∧
    ∀ session, build settings entered asked = .ok session →
      (∀ tree ∈ session.trees, tree.Over (.defined session.variableName)) ∧
      ((∀ tokens : List (Token ν), Token.tokenize session.text = .ok tokens → ∀ value position,
        ⟨.number value, position⟩ ∈ tokens → Arithmetic.isFinite value = true) →
          ∀ tree ∈ session.trees, tree.Over (.finite session.variableName)) ∧
      ∀ point, (∃ value, session.valueAt point = .ok value) ∧
        ∃ slope, session.slopeAt point = .ok slope := by
  refine ⟨fun fault => isRefusal_of_build, fun text formula => exists_build, ?_⟩
  intro session succeeded
  have built := built_of_build succeeded
  have treesDefined : ∀ tree ∈ session.trees, tree.Over (.defined session.variableName) := by
    refine built.trees_over (Vocabulary.hasWholes_defined _) (Vocabulary.hasFinite_defined _)
      (built.formula_over rfl (fun name value known => ?_)
        fun tokens tokenized value position present => ?_)
    · exact Number.isUndefined_eq_false (named name value known)
    · obtain ⟨decimal, rfl⟩ := Expr.exists_decimal_of_literal tokenized present
      exact Number.isUndefined_ofDecimal decimal
  refine ⟨treesDefined, fun literals => ?_, fun point => ?_⟩
  · exact built.trees_over (Vocabulary.hasWholes_finite _) (Vocabulary.hasFinite_finite _)
      (built.formula_over rfl named literals)
  · exact ⟨built.exists_valueAt point, built.exists_slopeAt point⟩

/-- A formula with a logarithm to a base and an infinite literal has a session under narrow limits.
Its slope at an undefined point is a number too, and a formula without an end is refused. -/
theorem build_closed_under_narrow_limits :
    let settings : Settings Float :=
      { Settings.standard with
        maxInputLength := 40, dialect := { Dialect.standard with maxNesting := 6 }, maxPasses := 1 }
    (∀ name value, settings.dialect.constant? name = some value →
      Arithmetic.isFinite value = true) ∧
    (∃ session, build settings (some " log(x, 2)^-x + 1e999 ") none = .ok session ∧
      (∀ tree ∈ session.trees, tree.Over (.defined session.variableName)) ∧
      ∃ slope, session.slopeAt (0 / 0) = .ok slope) ∧
    (∃ fault, build settings (some "x ^") (some "t") = .error fault ∧ fault.isRefusal = true) := by
  intro settings
  have named : ∀ name value, settings.dialect.constant? name = some value →
      Arithmetic.isFinite value = true := by
    intro name value known
    have each : ∀ entry ∈ settings.dialect.constants, Arithmetic.isFinite entry.2 = true := by
      decide +kernel
    obtain ⟨entry, found, rfl⟩ := Option.map_eq_some_iff.1 known
    exact each entry (List.mem_of_find?_eq_some found)
  have formulaRead : Expr.read settings.dialect "log(x, 2)^-x + 1e999" =
      .ok (.binary .add (.binary .pow (.call "log" [.var "x", .const 2]) (.neg (.var "x")))
        (.const (1 / 0))) := rfl
  have closed := build_closed settings named
  refine ⟨named, ?_, ?_⟩
  · obtain ⟨_, accepts, follows⟩ := closed (some " log(x, 2)^-x + 1e999 ") none
    obtain ⟨session, succeeded⟩ := accepts _ _ rfl formulaRead (by decide)
    obtain ⟨defined, _, values⟩ := follows session succeeded
    exact ⟨session, succeeded, defined, (values (0 / 0)).2⟩
  · have rejected : build settings (some "x ^") (some "t") =
        .error (.malformed (.unexpected .expression .endOfInput 3)) := rfl
    exact ⟨_, rejected, (closed (some "x ^") (some "t")).1 _ rejected⟩

end Session

end Tangent
