import Tangent.Proofs.Expr.NormalForm
import Tangent.Proofs.Expr.Simplification
import Tangent.Proofs.Number.Zero

/-!
# Derivatives by an absent variable

A tree that a variable does not occur in is differentiated like any other: the rules do not ask
whether it depends on the variable. What comes out is null in its form, a zero at every leaf that
matters, and a pass of the simplifier keeps it so. A null tree has no value but zero, or none where
one of its quotients has a divisor of zero. Without quotients a single pass leaves a lone zero.
-/

namespace Tangent

open Arithmetic

variable {ν : Type} [Arithmetic ν]

/-- Whether the rule of a function is a quotient. -/
def Elementary.hasQuotientRule : Elementary → Bool
  | tan | log | sqrt | asin | acos | atan | tanh => true
  | sin | cos | exp | abs | sign | sinh | cosh => false

/-- The variables that have a value, and the finite numbers. -/
def Vocabulary.valued (bindings : Bindings ν) : Vocabulary ν where
  IsVariable name := ∃ value, bindings name = some value
  IsConstant value := isFinite value = true

namespace Expr

/-- Whether the root of a tree is differentiated by a quotient. -/
def hasQuotientRule : Expr ν → Bool
  | binary .div _ _ => true
  | call name _ => (Elementary.ofName? name).any Elementary.hasQuotientRule
  | _ => false

/-- What is zero by its form, whatever the values of its variables are. A quotient is counted in if
quotients are allowed. -/
inductive Null (quotients : Prop) : Expr ν → Prop where
  | const {value : ν} (zero : IsZero value) : Null quotients (const value)
  | neg {operand : Expr ν} (null : Null quotients operand) : Null quotients (neg operand)
  | add {left right : Expr ν} (before : Null quotients left) (after : Null quotients right) :
      Null quotients (binary .add left right)
  | sub {left right : Expr ν} (before : Null quotients left) (after : Null quotients right) :
      Null quotients (binary .sub left right)
  | mulLeft {left right : Expr ν} (before : Null quotients left) :
      Null quotients (binary .mul left right)
  | mulRight {left right : Expr ν} (after : Null quotients right) :
      Null quotients (binary .mul left right)
  | div {left right : Expr ν} (allowed : quotients) (before : Null quotients left) :
      Null quotients (binary .div left right)

/-- Whether the root of a tree, where it is a quotient, has a divisor that is neither zero nor
undefined, and has finite factors where it is a product. -/
def IsRegular (bindings : Bindings ν) : Expr ν → Prop
  | binary .div _ divisor => ∃ value, divisor.evaluate bindings = .ok value ∧ ¬Vanishes value
  | binary .mul left right => left.HasFiniteValue bindings ∧ right.HasFiniteValue bindings
  | _ => True

section Forms

variable {quotients : Prop} {name : String} {operator : BinaryOperator}
  {tree operand left right leftRate rightRate : Expr ν}

/-- A rule gives something null if the derivatives it is given are null. The rule of powers is the
one for a fixed exponent, as no variable is left. -/
theorem null_operationRule (absent : name ∉ right.names)
    (allowed : operator = .div → quotients) (before : Null quotients leftRate)
    (after : Null quotients rightRate) :
    Null quotients (operationRule name operator left right leftRate rightRate) := by
  cases operator with
  | add => exact .add before after
  | sub => exact .sub before after
  | mul => exact .add (.mulLeft before) (.mulRight after)
  | div => exact .div (allowed rfl) (.sub (.mulLeft before) (.mulRight after))
  | pow =>
    have fixed : (!right.dependsOn name) = true := by simpa using absent
    simp only [operationRule, powerRule, fixed, if_true]
    exact .mulRight before

/-- A constant that is null is the zero that the simplifier looks for. -/
theorem Null.isWhole (null : Null quotients tree) (isConstant : tree.isConstant = true) :
    tree.isWhole 0 = true := by
  obtain ⟨value, rfl⟩ := isConstant_iff.1 isConstant
  cases null with
  | const zero => exact zero

theorem null_negated (null : Null quotients operand) : Null quotients (negated operand) := by
  cases null with
  | neg inner => exact inner
  | const zero => exact .neg (.const zero)
  | add before after => exact .neg (.add before after)
  | sub before after => exact .neg (.sub before after)
  | mulLeft before => exact .neg (.mulLeft before)
  | mulRight after => exact .neg (.mulRight after)
  | div allowed before => exact .neg (.div allowed before)

/-- Where every part of a tree has a finite value, its variables have values and its constants are
finite. -/
theorem over_valued {bindings : Bindings ν} (accepted : tree.CallsAccepted)
    (finite : tree.Throughout (HasFiniteValue bindings)) : tree.Over (.valued bindings) := by
  induction tree with
  | const value =>
    obtain ⟨_, known, isFinite⟩ := finite.self
    cases known
    exact over_const.2 isFinite
  | var name =>
    obtain ⟨value, known, _⟩ := finite.self
    rw [evaluate, evaluateIn] at known
    split at known
    · next bound isBound => exact over_var.2 ⟨bound, isBound⟩
    · cases known
  | neg operand inductionHypothesis =>
    exact over_neg.2
      (inductionHypothesis (callsAccepted_neg.1 accepted) (throughout_neg.1 finite).2)
  | binary operator left right leftHypothesis rightHypothesis =>
    obtain ⟨leftAccepted, rightAccepted⟩ := callsAccepted_binary.1 accepted
    obtain ⟨_, leftFinite, rightFinite⟩ := throughout_binary.1 finite
    exact over_binary.2
      ⟨leftHypothesis leftAccepted leftFinite, rightHypothesis rightAccepted rightFinite⟩
  | call name arguments inductionHypothesis =>
    obtain ⟨root, argumentsAccepted⟩ := throughout_call.1 accepted
    obtain ⟨_, argumentsFinite⟩ := throughout_call.1 finite
    exact over_call.2 ⟨root, fun argument present => inductionHypothesis argument present
      (argumentsAccepted argument present) (argumentsFinite argument present)⟩

end Forms

variable [KeepsZero ν] {quotients : Prop}

section Vocabularies

variable {bindings : Bindings ν}

theorem hasWholes_valued : (Vocabulary.valued bindings).HasWholes :=
  fun _ => KeepsZero.isFinite_ofNat

theorem hasWholes_finiteConstants : (Vocabulary.finiteConstants : Vocabulary ν).HasWholes :=
  fun _ => KeepsZero.isFinite_ofNat

end Vocabularies

section Rules

theorem null_whole : Null quotients (whole 0 : Expr ν) :=
  .const (KeepsZero.beq_refl (KeepsZero.isFinite_ofNat (by decide)))

theorem null_functionRule (function : Elementary) {argument rate : Expr ν}
    (allowed : function.hasQuotientRule = true → quotients) (null : Null quotients rate) :
    Null quotients (functionRule function argument rate) := by
  cases function with
  | sin | cos | exp | abs | sinh | cosh => exact .mulRight null
  | tan | log | sqrt | asin | atan | tanh => exact .div (allowed rfl) null
  | acos => exact .neg (.div (allowed rfl) null)
  | sign => exact null_whole

/-- The derivative by an absent variable is null, with quotients only where a rule brings them
in. -/
theorem exists_null_derivative {name : String} {tree : Expr ν} (accepted : tree.CallsAccepted)
    (absent : name ∉ tree.names)
    (allowed : tree.Throughout fun part => part.hasQuotientRule = true → quotients) :
    ∃ rate, tree.derivative name = .ok rate ∧ Null quotients rate := by
  induction tree with
  | const value => exact ⟨whole 0, rfl, null_whole⟩
  | var other =>
    have different : other ≠ name := fun same => absent (same ▸ List.mem_cons_self)
    exact ⟨whole 0, by rw [derivative, if_neg different], null_whole⟩
  | neg operand inductionHypothesis =>
    obtain ⟨rate, known, null⟩ :=
      inductionHypothesis (callsAccepted_neg.1 accepted) absent (throughout_neg.1 allowed).2
    exact ⟨neg rate, by rw [derivative, known]; rfl, .neg null⟩
  | binary operator left right leftHypothesis rightHypothesis =>
    obtain ⟨leftAccepted, rightAccepted⟩ := callsAccepted_binary.1 accepted
    obtain ⟨root, leftAllowed, rightAllowed⟩ := throughout_binary.1 allowed
    obtain ⟨notLeft, notRight⟩ := not_or.1 (mt List.mem_append.2 absent)
    obtain ⟨leftRate, leftKnown, before⟩ := leftHypothesis leftAccepted notLeft leftAllowed
    obtain ⟨rightRate, rightKnown, after⟩ := rightHypothesis rightAccepted notRight rightAllowed
    refine ⟨_, derivative_binary operator leftKnown rightKnown,
      null_operationRule notRight ?_ before after⟩
    rintro rfl
    exact root rfl
  | call called arguments inductionHypothesis =>
    obtain ⟨root, argumentsAccepted⟩ := throughout_call.1 accepted
    obtain ⟨rootAllowed, argumentsAllowed⟩ := throughout_call.1 allowed
    have known (argument : Expr ν) (present : argument ∈ arguments) :
        ∃ rate, argument.derivative name = .ok rate ∧ Null quotients rate := by
      refine inductionHypothesis argument present (argumentsAccepted argument present)
        (fun inside => absent ?_) (argumentsAllowed argument present)
      rw [names, namesOfAll_eq_flatMap]
      exact List.mem_flatMap.2 ⟨argument, present, inside⟩
    rcases hasAcceptedRoot_call_iff.1 root with
      ⟨function, argument, registered, rfl⟩ | ⟨argument, base, registered, rfl⟩
    · obtain ⟨rate, argumentKnown, null⟩ := known argument (by simp)
      refine ⟨_, derivative_call_one registered argumentKnown, null_functionRule function ?_ null⟩
      simpa [hasQuotientRule, registered] using rootAllowed
    · obtain ⟨argumentRate, argumentKnown, argumentNull⟩ := known argument (by simp)
      obtain ⟨baseRate, baseKnown, baseNull⟩ := known base (by simp)
      have divides : quotients := rootAllowed (by simp [hasQuotientRule, registered]; rfl)
      have argumentRule : Null quotients (functionRule .log argument argumentRate) :=
        null_functionRule .log (fun _ => divides) argumentNull
      have baseRule : Null quotients (functionRule .log base baseRate) :=
        null_functionRule .log (fun _ => divides) baseNull
      exact ⟨_, derivative_call_two registered argumentKnown baseKnown,
        .div divides (.sub (.mulLeft argumentRule) (.mulRight baseRule))⟩

end Rules

section Values

variable {bindings : Bindings ν} {tree : Expr ν} {value : ν}

/-- What is null has no value but zero, if the value is defined. -/
theorem Null.vanishes (null : Null quotients tree) (known : tree.evaluate bindings = .ok value) :
    Vanishes value := by
  induction null generalizing value with
  | const zero =>
    cases known
    exact .inl zero
  | neg _ inductionHypothesis =>
    obtain ⟨inner, innerKnown, rfl⟩ := exists_of_evaluate_neg known
    exact KeepsZero.vanishes_neg (inductionHypothesis innerKnown)
  | add _ _ leftHypothesis rightHypothesis =>
    obtain ⟨_, _, leftKnown, rightKnown, rfl⟩ := exists_of_evaluate_binary known
    exact KeepsZero.vanishes_add (leftHypothesis leftKnown) (rightHypothesis rightKnown)
  | sub _ _ leftHypothesis rightHypothesis =>
    obtain ⟨_, _, leftKnown, rightKnown, rfl⟩ := exists_of_evaluate_binary known
    exact KeepsZero.vanishes_sub (leftHypothesis leftKnown) (rightHypothesis rightKnown)
  | mulLeft _ leftHypothesis =>
    obtain ⟨_, _, leftKnown, _, rfl⟩ := exists_of_evaluate_binary known
    exact KeepsZero.vanishes_mul_left (leftHypothesis leftKnown)
  | mulRight _ rightHypothesis =>
    obtain ⟨_, _, _, rightKnown, rfl⟩ := exists_of_evaluate_binary known
    exact KeepsZero.vanishes_mul_right (rightHypothesis rightKnown)
  | div _ _ leftHypothesis =>
    obtain ⟨_, _, leftKnown, _, rfl⟩ := exists_of_evaluate_binary known
    exact KeepsZero.vanishes_div (leftHypothesis leftKnown)

/-- A number that is finite and vanishes is zero. -/
theorem isZero_of_isFinite (vanishes : Vanishes value) (finite : isFinite value = true) :
    IsZero value := by
  refine vanishes.resolve_right fun undefined => ?_
  rw [KeepsZero.beq_refl finite] at undefined
  cases undefined

/-- What is null and regular throughout is zero. -/
theorem Null.isZero (null : Null quotients tree) (regular : tree.Throughout (IsRegular bindings))
    (known : tree.evaluate bindings = .ok value) : IsZero value := by
  induction null generalizing value with
  | const zero =>
    cases known
    exact zero
  | neg _ inductionHypothesis =>
    obtain ⟨inner, innerKnown, rfl⟩ := exists_of_evaluate_neg known
    exact KeepsZero.isZero_neg (inductionHypothesis (throughout_neg.1 regular).2 innerKnown)
  | add _ _ leftHypothesis rightHypothesis =>
    obtain ⟨_, leftRegular, rightRegular⟩ := throughout_binary.1 regular
    obtain ⟨_, _, leftKnown, rightKnown, rfl⟩ := exists_of_evaluate_binary known
    exact KeepsZero.isZero_add (leftHypothesis leftRegular leftKnown)
      (rightHypothesis rightRegular rightKnown)
  | sub _ _ leftHypothesis rightHypothesis =>
    obtain ⟨_, leftRegular, rightRegular⟩ := throughout_binary.1 regular
    obtain ⟨_, _, leftKnown, rightKnown, rfl⟩ := exists_of_evaluate_binary known
    exact KeepsZero.isZero_sub (leftHypothesis leftRegular leftKnown)
      (rightHypothesis rightRegular rightKnown)
  | mulLeft _ leftHypothesis =>
    obtain ⟨⟨_, factor, factorKnown, factorFinite⟩, leftRegular, _⟩ := throughout_binary.1 regular
    obtain ⟨_, rightValue, leftKnown, rightKnown, rfl⟩ := exists_of_evaluate_binary known
    obtain rfl : factor = rightValue := Except.ok.inj (factorKnown.symm.trans rightKnown)
    exact KeepsZero.isZero_mul_left (leftHypothesis leftRegular leftKnown) factorFinite
  | mulRight _ rightHypothesis =>
    obtain ⟨⟨⟨factor, factorKnown, factorFinite⟩, _⟩, _, rightRegular⟩ :=
      throughout_binary.1 regular
    obtain ⟨leftValue, _, leftKnown, rightKnown, rfl⟩ := exists_of_evaluate_binary known
    obtain rfl : factor = leftValue := Except.ok.inj (factorKnown.symm.trans leftKnown)
    exact KeepsZero.isZero_mul_right factorFinite (rightHypothesis rightRegular rightKnown)
  | div _ _ leftHypothesis =>
    obtain ⟨⟨divisor, divisorKnown, nonzero⟩, leftRegular, _⟩ := throughout_binary.1 regular
    obtain ⟨_, rightValue, leftKnown, rightKnown, rfl⟩ := exists_of_evaluate_binary known
    obtain rfl : divisor = rightValue := Except.ok.inj (divisorKnown.symm.trans rightKnown)
    exact KeepsZero.isZero_div (leftHypothesis leftRegular leftKnown) nonzero

end Values

section Passes

variable {bindings : Bindings ν} {tree after operand left right : Expr ν}

/-- What is null stays so when it is folded. -/
theorem null_of_folded (null : Null quotients tree) (succeeded : folded tree = .ok after) :
    Null quotients after := by
  obtain ⟨value, known, returned⟩ := exists_of_bind_eq_ok succeeded
  split at returned
  · next finite =>
    cases returned
    exact .const (isZero_of_isFinite (null.vanishes known) finite)
  · cases returned
    exact null

/-- What is null stays so without its neutral operands. The factor that is dropped for a one is not
the null one, as that would have been dropped for a zero before. -/
theorem null_withoutNeutral {operator : BinaryOperator}
    (null : Null quotients (binary operator left right)) :
    Null quotients (withoutNeutral operator left right) := by
  unfold withoutNeutral
  cases null with
  | add before after =>
    dsimp only
    split
    · exact before
    · split
      · exact after
      · exact .add before after
  | sub before after =>
    dsimp only
    split
    · exact before
    · split
      · exact .neg after
      · exact .sub before after
  | mulLeft before =>
    dsimp only
    split
    · exact null_whole
    · next noZero =>
      split
      · exact before
      · split
        · next one =>
          refine absurd ?_ noZero
          rw [before.isWhole (isConstant_of_isWhole one), Bool.true_or]
        · exact .mulLeft before
  | mulRight after =>
    dsimp only
    split
    · exact null_whole
    · next noZero =>
      split
      · next one =>
        refine absurd ?_ noZero
        rw [after.isWhole (isConstant_of_isWhole one), Bool.or_true]
      · split
        · exact after
        · exact .mulRight after
  | div allowed before =>
    dsimp only
    split
    · exact before
    · exact .div allowed before

/-- A pass over an operation leaves something null if the operation on the rebuilt operands is. -/
theorem null_of_pass_binary {operator : BinaryOperator}
    (passed : pass (binary operator left right) = .ok after)
    (null : ∀ newLeft newRight, pass left = .ok newLeft → pass right = .ok newRight →
      Null quotients (binary operator newLeft newRight)) : Null quotients after := by
  obtain ⟨newLeft, newRight, leftPassed, rightPassed, finished⟩ := exists_operands_of_pass passed
  have rebuiltNull := null newLeft newRight leftPassed rightPassed
  split at finished
  · exact null_of_folded rebuiltNull finished
  · cases finished
    exact null_withoutNeutral rebuiltNull

/-- A pass keeps what is null. -/
theorem null_of_pass (null : Null quotients tree) (passed : pass tree = .ok after) :
    Null quotients after := by
  induction null generalizing after with
  | const zero =>
    cases passed
    exact .const zero
  | neg _ inductionHypothesis =>
    obtain ⟨operand, operandPassed, finished⟩ := exists_of_bind_eq_ok passed
    have operandNull := inductionHypothesis operandPassed
    split at finished
    · exact null_of_folded (.neg operandNull) finished
    · cases finished
      exact null_negated operandNull
  | add _ _ leftHypothesis rightHypothesis =>
    exact null_of_pass_binary passed fun _ _ leftPassed rightPassed =>
      .add (leftHypothesis leftPassed) (rightHypothesis rightPassed)
  | sub _ _ leftHypothesis rightHypothesis =>
    exact null_of_pass_binary passed fun _ _ leftPassed rightPassed =>
      .sub (leftHypothesis leftPassed) (rightHypothesis rightPassed)
  | mulLeft _ leftHypothesis =>
    exact null_of_pass_binary passed fun _ _ leftPassed _ => .mulLeft (leftHypothesis leftPassed)
  | mulRight _ rightHypothesis =>
    exact null_of_pass_binary passed fun _ _ _ rightPassed =>
      .mulRight (rightHypothesis rightPassed)
  | div allowed _ leftHypothesis =>
    exact null_of_pass_binary passed fun _ _ leftPassed _ =>
      .div allowed (leftHypothesis leftPassed)

/-- Any number of passes keeps what is null. -/
theorem null_of_passes {number : Nat} (null : Null quotients tree)
    (passed : passes number tree = .ok after) : Null quotients after := by
  induction number generalizing tree with
  | zero =>
    cases passed
    exact null
  | succ number inductionHypothesis =>
    obtain ⟨next, first, others⟩ := exists_of_bind_eq_ok passed
    exact inductionHypothesis (null_of_pass null first) others

/-- What has the value zero is folded to that zero. -/
theorem exists_zero_of_folded {value : ν} (zero : IsZero value)
    (known : tree.evaluate Bindings.empty = .ok value) (succeeded : folded tree = .ok after) :
    ∃ zero, after = const zero ∧ IsZero zero := by
  rw [folded, known] at succeeded
  simp only [bind, Except.bind, pure, Except.pure, KeepsZero.isFinite_of_isZero zero, if_true,
    Except.ok.injEq] at succeeded
  exact ⟨value, succeeded.symm, zero⟩

/-- A product with a zero is folded to a zero if both factors are constants, and dropped if not. -/
theorem exists_zero_of_product (zero : left.isWhole 0 = true ∨ right.isWhole 0 = true)
    (foldsToZero : ∀ u v, left = const u → right = const v → IsZero (u * v))
    (finished : (if left.isConstant && right.isConstant then folded (binary .mul left right)
      else .ok (withoutNeutral .mul left right)) = .ok after) :
    ∃ zero, after = const zero ∧ IsZero zero := by
  split at finished
  · next both =>
    obtain ⟨leftConstant, rightConstant⟩ := Bool.and_eq_true_iff.1 both
    obtain ⟨u, rfl⟩ := isConstant_iff.1 leftConstant
    obtain ⟨v, rfl⟩ := isConstant_iff.1 rightConstant
    exact exists_zero_of_folded (foldsToZero u v rfl rfl) rfl finished
  · cases finished
    have dropped : withoutNeutral .mul left right = whole 0 :=
      if_pos (Bool.or_eq_true_iff.2 zero)
    exact ⟨ofNat 0, dropped, KeepsZero.beq_refl (KeepsZero.isFinite_ofNat (by decide))⟩

/-- A pass leaves nothing of a null tree without quotients but a zero. -/
theorem exists_zero_of_pass (null : Null False tree) (isOver : tree.Over .finiteConstants)
    (passed : pass tree = .ok after) : ∃ zero, after = const zero ∧ IsZero zero := by
  have factorFinite {part : Expr ν} {factor : ν} (isOver : part.Over .finiteConstants)
      (passed : pass part = .ok (const factor)) : isFinite factor = true :=
    over_const.1 (pass_over hasWholes_finiteConstants (fun _ isFinite => isFinite) passed isOver)
  induction null generalizing after with
  | const zero =>
    cases passed
    exact ⟨_, rfl, zero⟩
  | neg _ inductionHypothesis =>
    obtain ⟨operand, operandPassed, finished⟩ := exists_of_bind_eq_ok passed
    obtain ⟨inner, rfl, zero⟩ := inductionHypothesis (over_neg.1 isOver) operandPassed
    exact exists_zero_of_folded (KeepsZero.isZero_neg zero) rfl finished
  | add _ _ leftHypothesis rightHypothesis =>
    obtain ⟨leftOver, rightOver⟩ := over_binary.1 isOver
    obtain ⟨left, right, leftPassed, rightPassed, finished⟩ := exists_operands_of_pass passed
    obtain ⟨_, rfl, leftZero⟩ := leftHypothesis leftOver leftPassed
    obtain ⟨_, rfl, rightZero⟩ := rightHypothesis rightOver rightPassed
    exact exists_zero_of_folded (KeepsZero.isZero_add leftZero rightZero) rfl finished
  | sub _ _ leftHypothesis rightHypothesis =>
    obtain ⟨leftOver, rightOver⟩ := over_binary.1 isOver
    obtain ⟨left, right, leftPassed, rightPassed, finished⟩ := exists_operands_of_pass passed
    obtain ⟨_, rfl, leftZero⟩ := leftHypothesis leftOver leftPassed
    obtain ⟨_, rfl, rightZero⟩ := rightHypothesis rightOver rightPassed
    exact exists_zero_of_folded (KeepsZero.isZero_sub leftZero rightZero) rfl finished
  | mulLeft _ leftHypothesis =>
    obtain ⟨leftOver, rightOver⟩ := over_binary.1 isOver
    obtain ⟨left, right, leftPassed, rightPassed, finished⟩ := exists_operands_of_pass passed
    obtain ⟨zero, rfl, isZero⟩ := leftHypothesis leftOver leftPassed
    have isWhole : (const zero).isWhole 0 = true := isZero
    refine exists_zero_of_product (.inl isWhole) ?_ finished
    rintro _ factor ⟨⟩ rfl
    exact KeepsZero.isZero_mul_left isZero (factorFinite rightOver rightPassed)
  | mulRight _ rightHypothesis =>
    obtain ⟨leftOver, rightOver⟩ := over_binary.1 isOver
    obtain ⟨left, right, leftPassed, rightPassed, finished⟩ := exists_operands_of_pass passed
    obtain ⟨zero, rfl, isZero⟩ := rightHypothesis rightOver rightPassed
    have isWhole : (const zero).isWhole 0 = true := isZero
    refine exists_zero_of_product (.inr isWhole) ?_ finished
    rintro factor _ rfl ⟨⟩
    exact KeepsZero.isZero_mul_right (factorFinite leftOver leftPassed) isZero
  | div allowed => exact allowed.elim

/-- As many passes as there may be, but at least one, leave nothing of a null tree without
quotients but a zero. -/
theorem exists_zero_of_passes {number : Nat} (positive : 0 < number) (null : Null False tree)
    (isOver : tree.Over .finiteConstants) (passed : passes number tree = .ok after) :
    ∃ zero, after = const zero ∧ IsZero zero := by
  obtain ⟨further, rfl⟩ := Nat.exists_eq_succ_of_ne_zero (Nat.ne_of_gt positive)
  obtain ⟨next, first, others⟩ := exists_of_bind_eq_ok passed
  obtain ⟨zero, rfl, isZero⟩ := exists_zero_of_pass null isOver first
  rw [passes_of_pass_eq rfl] at others
  cases others
  exact ⟨zero, rfl, isZero⟩

end Passes

/-- Where a variable does not occur, and every part of the tree has a finite value, the simplified
derivative has a value that is zero or undefined. It is zero if the simplified derivative is
regular: no quotient in it has a divisor that is zero or undefined, and no product a factor that is
not finite. And if no part of the tree is differentiated by a quotient, a single pass already leaves
a lone zero of the derivative. -/
theorem simplified_derivative_vanishes (passes : Nat) {tree : Expr ν} {name : String}
    {bindings : Bindings ν} (accepted : tree.CallsAccepted) (absent : name ∉ tree.names)
    (finite : tree.Throughout (HasFiniteValue bindings)) :
    ∃ rate simplified value, tree.derivative name = .ok rate ∧
      simplify passes rate = .ok simplified ∧ simplified.tree.evaluate bindings = .ok value ∧
      Vanishes value ∧
      (simplified.tree.Throughout (IsRegular bindings) → IsZero value) ∧
      (0 < passes → (∀ part ∈ tree.subtrees, part.hasQuotientRule = false) →
        ∃ zero, simplified.tree = const zero ∧ IsZero zero) := by
  obtain ⟨rate, known, rateOver⟩ :=
    exists_derivative_over name hasWholes_valued (over_valued accepted finite)
  obtain ⟨simplified, succeeded, isOver⟩ :=
    exists_simplify_over hasWholes_valued (fun _ isFinite => isFinite) rateOver passes
  obtain ⟨value, valueKnown⟩ := exists_evaluate isOver.names isOver.accepted
  have passed : Expr.passes passes rate = .ok simplified.tree := by
    rw [← tree_simplify, succeeded]
    rfl
  have null : Null True simplified.tree := by
    obtain ⟨_, again, null⟩ := exists_null_derivative accepted absent fun _ _ _ => trivial
    cases known.symm.trans again
    exact null_of_passes null passed
  refine ⟨rate, simplified, value, known, succeeded, valueKnown, null.vanishes valueKnown,
    fun regular => null.isZero regular valueKnown, fun positive plain => ?_⟩
  obtain ⟨_, again, rateNull⟩ := exists_null_derivative accepted absent fun part inside divides =>
    absurd divides (by rw [plain part inside]; exact Bool.false_ne_true)
  cases known.symm.trans again
  exact exists_zero_of_passes positive rateNull
    ⟨rateOver.accepted, fun _ _ => trivial, rateOver.constants⟩ passed

/-- The derivative of `3 * sqrt(y) + abs(z)` by another variable is left as
`3 * (0 / (2 * sqrt(y)))`, which is zero at four. Of `3 * abs(z)` nothing but a zero is left. -/
theorem simplified_derivative_vanishes_of_root :
    let root : Expr Float := apply .sqrt (var "y")
    let plain : Expr Float := binary .mul (const 3) (apply .abs (var "z"))
    let tree : Expr Float := binary .add (binary .mul (const 3) root) plain
    let left : Expr Float :=
      binary .mul (const 3) (binary .div (const 0) (binary .mul (const 2) root))
    let bindings : Bindings Float := fun name => if name = "y" then some 4 else some (-2)
    (tree.CallsAccepted ∧ "x" ∉ tree.names ∧ tree.Throughout (HasFiniteValue bindings) ∧
      left.Throughout (IsRegular bindings) ∧
      ∃ rate value, tree.derivative "x" = .ok rate ∧ simplify 64 rate = .ok ⟨left, true⟩ ∧
        left.evaluate bindings = .ok value ∧ IsZero value) ∧
    plain.CallsAccepted ∧ "x" ∉ plain.names ∧ plain.Throughout (HasFiniteValue bindings) ∧
      (∀ part ∈ plain.subtrees, part.hasQuotientRule = false) ∧
      ∃ rate simplified zero, plain.derivative "x" = .ok rate ∧
        simplify 1 rate = .ok simplified ∧ simplified.tree = const zero ∧ IsZero zero := by
  intro root plain tree left bindings
  have finite {part : Expr Float} {value : Float} (known : part.evaluate bindings = .ok value)
      (finite : isFinite value = true) : HasFiniteValue bindings part := ⟨value, known, finite⟩
  have three : HasFiniteValue bindings (const (3 : Float)) := finite rfl rfl
  have rootKnown : root.evaluate bindings = .ok 2 := by decide +kernel
  have rootFinite : root.Throughout (HasFiniteValue bindings) :=
    throughout_call.2 ⟨finite rootKnown rfl,
      List.forall_mem_singleton.2 (throughout_var.2 ⟨4, rfl, rfl⟩)⟩
  have plainKnown : plain.evaluate bindings = .ok 6 := by decide +kernel
  have plainFinite : plain.Throughout (HasFiniteValue bindings) :=
    throughout_binary.2 ⟨finite plainKnown rfl, throughout_const.2 three,
      throughout_call.2 ⟨⟨2, rfl, rfl⟩,
        List.forall_mem_singleton.2 (throughout_var.2 ⟨-2, rfl, rfl⟩)⟩⟩
  have productKnown : (binary .mul (const 3) root).evaluate bindings = .ok 6 := by decide +kernel
  have treeFinite : tree.Throughout (HasFiniteValue bindings) :=
    throughout_binary.2 ⟨⟨12, by decide +kernel, rfl⟩,
      throughout_binary.2 ⟨finite productKnown rfl, throughout_const.2 three, rootFinite⟩,
      plainFinite⟩
  have leftRegular : left.Throughout (IsRegular bindings) := by
    have divisorKnown : (binary .mul (const 2) root).evaluate bindings = .ok 4 := by decide +kernel
    have nonzero : ¬Vanishes (4 : Float) := by
      unfold Vanishes IsZero
      decide +kernel
    have quotient : HasFiniteValue bindings
        (binary .div (const 0) (binary .mul (const 2) root)) := ⟨0, by decide +kernel, rfl⟩
    exact throughout_binary.2 ⟨⟨three, quotient⟩, throughout_const.2 trivial,
      throughout_binary.2 ⟨⟨4, divisorKnown, nonzero⟩, throughout_const.2 trivial,
        throughout_binary.2 ⟨⟨⟨2, rfl, rfl⟩, rootFinite.self⟩, throughout_const.2 trivial,
          throughout_call.2 ⟨trivial, List.forall_mem_singleton.2 (throughout_var.2 trivial)⟩⟩⟩⟩
  constructor
  · have accepted : tree.CallsAccepted := by decide
    have absent : "x" ∉ tree.names := by decide
    obtain ⟨rate, simplified, value, known, succeeded, valueKnown, _, zero, _⟩ :=
      simplified_derivative_vanishes 64 accepted absent treeFinite
    have rewritten : simplify 64 rate = .ok ⟨left, true⟩ := by
      cases known
      rfl
    obtain rfl : simplified = ⟨left, true⟩ := Except.ok.inj (succeeded.symm.trans rewritten)
    exact ⟨accepted, absent, treeFinite, leftRegular, rate, value, known, succeeded, valueKnown,
      zero leftRegular⟩
  · have accepted : plain.CallsAccepted := by decide
    have absent : "x" ∉ plain.names := by decide
    have noQuotient : ∀ part ∈ plain.subtrees, part.hasQuotientRule = false := by decide
    obtain ⟨rate, simplified, _, known, succeeded, _, _, _, nothing⟩ :=
      simplified_derivative_vanishes 1 accepted absent plainFinite
    obtain ⟨zero, same, isZero⟩ := nothing Nat.one_pos noQuotient
    exact ⟨accepted, absent, plainFinite, noQuotient, rate, simplified, zero, known, succeeded,
      same, isZero⟩

/-- The root of zero is finite, and the derivative by a variable it does not have is simplified to a
quotient of zeros, which has no value. -/
theorem simplified_derivative_of_root_of_zero :
    let tree : Expr Float := apply .sqrt (const 0)
    let bindings : Bindings Float := .single "x" 1
    tree.CallsAccepted ∧ tree.names = [] ∧ tree.Throughout (HasFiniteValue bindings) ∧
      ∃ rate simplified value, tree.derivative "x" = .ok rate ∧
        simplify 64 rate = .ok simplified ∧ simplified.tree = binary .div (const 0) (const 0) ∧
        simplified.tree.evaluate bindings = .ok value ∧ ¬IsZero value := by
  intro tree bindings
  have finite : tree.Throughout (HasFiniteValue bindings) := by
    have inner : HasFiniteValue bindings (const (0 : Float)) := ⟨0, rfl, rfl⟩
    exact throughout_call.2 ⟨⟨0, rfl, rfl⟩, List.forall_mem_singleton.2 (throughout_const.2 inner)⟩
  refine ⟨by decide, rfl, finite, _, _, _, rfl, rfl, rfl, rfl, ?_⟩
  unfold IsZero
  decide +kernel

end Expr

end Tangent
