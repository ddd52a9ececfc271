import Tangent.Expr.Simplification
import Tangent.Proofs.Expr.Evaluation
import Tangent.Proofs.Number.Reals
import Tangent.Proofs.Number.Signed

/-!
# Simplification keeps values

Where all parts of a tree have finite values, all parts of the simplified tree have, and its value
equals that of the tree. Values and finiteness are carried together: a rewritten operand only has
an equal value, and operations respect equality only as long as results are finite.
-/

namespace Tangent.Expr

open Arithmetic

variable {ν : Type}

variable [Arithmetic ν]

/-- Whether a tree has a finite value. -/
def HasFiniteValue (bindings : Bindings ν) (tree : Expr ν) : Prop :=
  ∃ value, tree.evaluate bindings = .ok value ∧ isFinite value = true

/-- A tree of accepted calls and finite parts, with a value equal to a given one. -/
structure Stands (bindings : Bindings ν) (value : ν) (tree : Expr ν) : Prop where
  accepted : tree.CallsAccepted
  finite : tree.Throughout (HasFiniteValue bindings)
  equal : ∃ result, tree.evaluate bindings = .ok result ∧ (result == value) = true

namespace Stands

variable {bindings : Bindings ν} {value other leftValue rightValue : ν}
  {tree operand left right : Expr ν}

/-- A tree that stands for a value has a finite value that equals it. -/
theorem exists_result (stands : Stands bindings value tree) :
    ∃ result, tree.evaluate bindings = .ok result ∧ isFinite result = true ∧
      (result == value) = true := by
  obtain ⟨result, known, equal⟩ := stands.equal
  obtain ⟨again, knownAgain, finite⟩ := stands.finite.self
  obtain rfl : result = again := Except.ok.inj (known.symm.trans knownAgain)
  exact ⟨result, known, finite, equal⟩

variable [Arithmetic.Lawful ν]

/-- What a tree stands for is finite. -/
theorem isFinite_value (stands : Stands bindings value tree) : isFinite value = true := by
  obtain ⟨result, _, finite, equal⟩ := stands.exists_result
  exact Lawful.isFinite_of_beq finite equal

/-- A tree that stands for a value stands for every value equal to it. -/
theorem trans (stands : Stands bindings value tree) (equal : (value == other) = true) :
    Stands bindings other tree := by
  obtain ⟨result, known, finite, same⟩ := stands.exists_result
  exact ⟨stands.accepted, stands.finite, result, known, Lawful.beq_trans finite same equal⟩

/-- A tree of accepted calls and finite parts stands for its own value. -/
theorem exists_of_finite (accepted : tree.CallsAccepted)
    (finite : tree.Throughout (HasFiniteValue bindings)) :
    ∃ value, tree.evaluate bindings = .ok value ∧ Stands bindings value tree := by
  obtain ⟨value, known, valueFinite⟩ := finite.self
  exact ⟨value, known, accepted, finite, value, known, Lawful.beq_refl valueFinite⟩

/-- A tree stands for a finite value that equals its own if its operands are accepted and finite. -/
theorem of_result (accepted : tree.CallsAccepted)
    (throughout : HasFiniteValue bindings tree → tree.Throughout (HasFiniteValue bindings))
    (known : tree.evaluate bindings = .ok other) (finite : isFinite value = true)
    (equal : (value == other) = true) : Stands bindings value tree where
  accepted := accepted
  finite := throughout ⟨other, known, Lawful.isFinite_of_beq finite equal⟩
  equal := ⟨other, known, Lawful.beq_symm finite equal⟩

/-- A finite constant stands for its value. -/
theorem const (finite : isFinite value = true) : Stands bindings value (const value) :=
  .of_result (callsAccepted_const value) throughout_const.2 rfl finite (Lawful.beq_refl finite)

theorem neg (stands : Stands bindings value operand) :
    Stands bindings (-value) (neg operand) := by
  obtain ⟨result, known, finite, equal⟩ := stands.exists_result
  have valueFinite := stands.isFinite_value
  refine .of_result (callsAccepted_neg.2 stands.accepted)
    (fun self => throughout_neg.2 ⟨self, stands.finite⟩) (evaluateIn_neg known)
    (Lawful.isFinite_neg valueFinite) ?_
  exact Lawful.neg_congr valueFinite (Lawful.beq_symm finite equal)

/-- An operation between trees stands for the operation between their values, if that is
finite. -/
theorem binary (operator : BinaryOperator) (leftStands : Stands bindings leftValue left)
    (rightStands : Stands bindings rightValue right)
    (finite : isFinite (combine operator leftValue rightValue) = true) :
    Stands bindings (combine operator leftValue rightValue) (binary operator left right) := by
  obtain ⟨leftResult, leftKnown, leftFinite, leftEqual⟩ := leftStands.exists_result
  obtain ⟨rightResult, rightKnown, rightFinite, rightEqual⟩ := rightStands.exists_result
  refine .of_result (callsAccepted_binary.2 ⟨leftStands.accepted, rightStands.accepted⟩)
    (fun self => throughout_binary.2 ⟨self, leftStands.finite, rightStands.finite⟩)
    (evaluateIn_binary leftKnown rightKnown) finite ?_
  exact Lawful.combine_congr operator leftStands.isFinite_value rightStands.isFinite_value
    (Lawful.beq_symm leftFinite leftEqual) (Lawful.beq_symm rightFinite rightEqual) finite

/-- A call with one argument stands for the value of its function, if that is finite. -/
theorem call_one {name : String} {function : Elementary}
    (registered : Elementary.ofName? name = some function)
    (stands : Stands bindings value operand)
    (finite : isFinite (Arithmetic.apply function value) = true) :
    Stands bindings (Arithmetic.apply function value) (call name [operand]) := by
  obtain ⟨result, known, argumentFinite, equal⟩ := stands.exists_result
  have accepted : (call name [operand]).CallsAccepted :=
    callsAccepted_call_iff.2 ⟨.inl ⟨function, operand, registered, rfl⟩, by simp [stands.accepted]⟩
  refine .of_result accepted (fun self => throughout_call.2 ⟨self, by simp [stands.finite]⟩)
    (evaluateIn_call_one registered known) finite ?_
  exact Lawful.apply_congr function stands.isFinite_value
    (Lawful.beq_symm argumentFinite equal) finite

/-- A logarithm to a base stands for its value, if that is finite. -/
theorem call_two {name : String} (registered : Elementary.ofName? name = some .log)
    (argumentStands : Stands bindings leftValue left)
    (baseStands : Stands bindings rightValue right)
    (finite : isFinite (logarithm leftValue rightValue) = true) :
    Stands bindings (logarithm leftValue rightValue) (call name [left, right]) := by
  obtain ⟨argument, argumentKnown, argumentFinite, argumentEqual⟩ := argumentStands.exists_result
  obtain ⟨base, baseKnown, baseFinite, baseEqual⟩ := baseStands.exists_result
  have accepted : (call name [left, right]).CallsAccepted :=
    callsAccepted_call_iff.2 ⟨.inr ⟨left, right, registered, rfl⟩,
      by simp [argumentStands.accepted, baseStands.accepted]⟩
  refine .of_result accepted
    (fun self => throughout_call.2 ⟨self, by simp [argumentStands.finite, baseStands.finite]⟩)
    (evaluateIn_call_two registered argumentKnown baseKnown) finite ?_
  exact Lawful.logarithm_congr argumentStands.isFinite_value baseStands.isFinite_value
    (Lawful.beq_symm argumentFinite argumentEqual) (Lawful.beq_symm baseFinite baseEqual) finite

/-- The operands of an operation stand for values whose operation equals what it stands for. -/
theorem exists_of_binary {operator : BinaryOperator}
    (stands : Stands bindings value (Expr.binary operator left right)) :
    ∃ leftValue rightValue, Stands bindings leftValue left ∧ Stands bindings rightValue right ∧
      isFinite (combine operator leftValue rightValue) = true ∧
      (combine operator leftValue rightValue == value) = true := by
  obtain ⟨result, known, finite, equal⟩ := stands.exists_result
  obtain ⟨leftAccepted, rightAccepted⟩ := callsAccepted_binary.1 stands.accepted
  obtain ⟨_, leftFinite, rightFinite⟩ := throughout_binary.1 stands.finite
  obtain ⟨leftValue, leftKnown, leftStands⟩ := exists_of_finite leftAccepted leftFinite
  obtain ⟨rightValue, rightKnown, rightStands⟩ := exists_of_finite rightAccepted rightFinite
  obtain rfl : combine operator leftValue rightValue = result :=
    Except.ok.inj ((evaluateIn_binary leftKnown rightKnown).symm.trans known)
  exact ⟨leftValue, rightValue, leftStands, rightStands, finite, equal⟩

/-- The arguments of a call stand for values. -/
theorem exists_of_argument {name : String} {arguments : List (Expr ν)}
    (stands : Stands bindings value (call name arguments)) (argument : Expr ν)
    (present : argument ∈ arguments) :
    ∃ argumentValue, argument.evaluate bindings = .ok argumentValue ∧
      Stands bindings argumentValue argument :=
  exists_of_finite ((callsAccepted_call_iff.1 stands.accepted).2 argument present)
    ((throughout_call.1 stands.finite).2 argument present)

/-- The argument of a call stands for a value that the function takes to what the call stands
for. -/
theorem exists_of_call_one {name : String} {function : Elementary}
    (registered : Elementary.ofName? name = some function)
    (stands : Stands bindings value (call name [operand])) :
    ∃ argument, Stands bindings argument operand ∧
      isFinite (Arithmetic.apply function argument) = true ∧
      (Arithmetic.apply function argument == value) = true := by
  obtain ⟨result, known, finite, equal⟩ := stands.exists_result
  obtain ⟨argument, argumentKnown, argumentStands⟩ := stands.exists_of_argument operand (by simp)
  obtain rfl : Arithmetic.apply function argument = result :=
    Except.ok.inj ((evaluateIn_call_one registered argumentKnown).symm.trans known)
  exact ⟨argument, argumentStands, finite, equal⟩

/-- The arguments of a logarithm to a base stand for values whose logarithm equals what it stands
for. -/
theorem exists_of_call_two {name : String} (registered : Elementary.ofName? name = some .log)
    (stands : Stands bindings value (call name [left, right])) :
    ∃ argument base, Stands bindings argument left ∧ Stands bindings base right ∧
      isFinite (logarithm argument base) = true ∧ (logarithm argument base == value) = true := by
  obtain ⟨result, known, finite, equal⟩ := stands.exists_result
  obtain ⟨argument, argumentKnown, argumentStands⟩ := stands.exists_of_argument left (by simp)
  obtain ⟨base, baseKnown, baseStands⟩ := stands.exists_of_argument right (by simp)
  obtain rfl : logarithm argument base = result :=
    Except.ok.inj ((evaluateIn_call_two registered argumentKnown baseKnown).symm.trans known)
  exact ⟨argument, base, argumentStands, baseStands, finite, equal⟩

/-- An operand of a negation stands for the negated value. -/
theorem of_neg (stands : Stands bindings value (Expr.neg operand)) :
    Stands bindings (-value) operand := by
  obtain ⟨result, known, finite, equal⟩ := stands.exists_result
  obtain ⟨_, operandFinite⟩ := throughout_neg.1 stands.finite
  obtain ⟨inner, innerKnown, innerFinite⟩ := operandFinite.self
  obtain rfl : -inner = result :=
    Except.ok.inj ((evaluateIn_neg innerKnown).symm.trans known)
  have back : (inner == - -inner) = true :=
    Lawful.beq_symm (Lawful.isFinite_neg finite) (Lawful.neg_neg innerFinite)
  exact ⟨callsAccepted_neg.1 stands.accepted, operandFinite, inner, innerKnown,
    Lawful.beq_trans innerFinite back (Lawful.neg_congr finite equal)⟩

/-- What equals a value that a tree stands for is stood for too. -/
theorem of_beq (stands : Stands bindings value tree) (finite : isFinite other = true)
    (equal : (other == value) = true) : Stands bindings other tree :=
  stands.trans (Lawful.beq_symm finite equal)

/-- The constant of a whole number stands for what equals that number. -/
theorem whole {number : Nat} (finite : isFinite other = true)
    (equal : (other == ofNat number) = true) :
    Stands bindings other (Expr.const (ofNat number)) :=
  (Stands.const (Lawful.isFinite_of_beq finite equal)).of_beq finite equal

/-- A tree that is a whole number stands for a value that equals it. -/
theorem beq_ofNat {number : Nat} (stands : Stands bindings value tree)
    (isWhole : tree.isWhole number = true) : (value == ofNat number) = true := by
  cases tree with
  | const constant =>
    obtain ⟨result, known, finite, equal⟩ := stands.exists_result
    obtain rfl : constant = result := Except.ok.inj known
    exact Lawful.beq_trans stands.isFinite_value (Lawful.beq_symm finite equal) isWhole
  | _ => cases isWhole

section Neutral

variable {number : Nat} (operator : BinaryOperator)
  (leftStands : Stands bindings leftValue left) (rightStands : Stands bindings rightValue right)
  (finite : isFinite (combine operator leftValue rightValue) = true)

include leftStands rightStands finite

/-- An operation with a whole number on its right equals what it does with that number. -/
theorem combine_beq_right (isWhole : right.isWhole number = true)
    (law : (combine operator leftValue (ofNat number) == other) = true) :
    (combine operator leftValue rightValue == other) = true := by
  have same := Lawful.combine_congr operator leftStands.isFinite_value rightStands.isFinite_value
    (Lawful.beq_refl leftStands.isFinite_value) (rightStands.beq_ofNat isWhole) finite
  exact Lawful.beq_trans finite same law

/-- An operation with a whole number on its left equals what it does with that number. -/
theorem combine_beq_left (isWhole : left.isWhole number = true)
    (law : (combine operator (ofNat number) rightValue == other) = true) :
    (combine operator leftValue rightValue == other) = true := by
  have same := Lawful.combine_congr operator leftStands.isFinite_value rightStands.isFinite_value
    (leftStands.beq_ofNat isWhole) (Lawful.beq_refl rightStands.isFinite_value) finite
  exact Lawful.beq_trans finite same law

end Neutral

end Stands

variable [Arithmetic.Lawful ν] {bindings : Bindings ν} {value leftValue rightValue : ν}
  {tree operand left right : Expr ν}

/-- A tree without variables is folded to one that stands for the same value. -/
theorem folded_stands (stands : Stands bindings value tree) (closed : tree.names = []) :
    ∃ after, folded tree = .ok after ∧ Stands bindings value after := by
  obtain ⟨result, known, finite, equal⟩ := stands.exists_result
  have same : tree.evaluate Bindings.empty = .ok result := by
    rw [← known]
    exact evaluateIn_congr (by simp [closed])
  refine ⟨Expr.const result, ?_, (Stands.const finite).trans equal⟩
  rw [folded, same]
  simp [bind, Except.bind, pure, Except.pure, finite]

/-- Negation without a second one below it stands for the negated value. -/
theorem negated_stands (stands : Stands bindings value operand) :
    Stands bindings (-value) (negated operand) := by
  cases operand with
  | neg inner => exact stands.of_neg
  | _ => exact stands.neg

/-- An operation without a neutral operand stands for the value of the operation. -/
theorem withoutNeutral_stands (operator : BinaryOperator)
    (leftStands : Stands bindings leftValue left) (rightStands : Stands bindings rightValue right)
    (finite : isFinite (combine operator leftValue rightValue) = true) :
    Stands bindings (combine operator leftValue rightValue)
      (withoutNeutral operator left right) := by
  have onRight {number : Nat} {other : ν} (isWhole : right.isWhole number = true)
      (law : (combine operator leftValue (ofNat number) == other) = true) :=
    leftStands.combine_beq_right operator rightStands finite isWhole law
  have onLeft {number : Nat} {other : ν} (isWhole : left.isWhole number = true)
      (law : (combine operator (ofNat number) rightValue == other) = true) :=
    leftStands.combine_beq_left operator rightStands finite isWhole law
  have leftFinite := leftStands.isFinite_value
  have rightFinite := rightStands.isFinite_value
  unfold withoutNeutral
  cases operator with
  | add =>
    dsimp only
    split
    · next zero => exact leftStands.of_beq finite (onRight zero (Lawful.add_zero leftFinite))
    · split
      · next zero => exact rightStands.of_beq finite (onLeft zero (Lawful.zero_add rightFinite))
      · exact leftStands.binary .add rightStands finite
  | sub =>
    dsimp only
    split
    · next zero => exact leftStands.of_beq finite (onRight zero (Lawful.sub_zero leftFinite))
    · split
      · next zero =>
        exact rightStands.neg.of_beq finite (onLeft zero (Lawful.zero_sub rightFinite))
      · exact leftStands.binary .sub rightStands finite
  | mul =>
    dsimp only
    split
    · next zero =>
      rcases Bool.or_eq_true_iff.1 zero with zeroLeft | zeroRight
      · exact .whole finite (onLeft zeroLeft (Lawful.zero_mul rightFinite))
      · exact .whole finite (onRight zeroRight (Lawful.mul_zero leftFinite))
    · split
      · next one => exact leftStands.of_beq finite (onRight one (Lawful.mul_one leftFinite))
      · split
        · next one => exact rightStands.of_beq finite (onLeft one (Lawful.one_mul rightFinite))
        · exact leftStands.binary .mul rightStands finite
  | div =>
    dsimp only
    split
    · next one => exact leftStands.of_beq finite (onRight one (Lawful.div_one leftFinite))
    · exact leftStands.binary .div rightStands finite
  | pow =>
    dsimp only
    split
    · next zero => exact .whole finite (onRight zero (Lawful.power_zero leftFinite))
    · split
      · next one => exact leftStands.of_beq finite (onRight one (Lawful.power_one leftFinite))
      · exact leftStands.binary .pow rightStands finite

/-- A rebuilt negation stands for the negated value. -/
theorem rebuiltNegation_stands (stands : Stands bindings value operand) :
    ∃ after, (if operand.isConstant then folded (neg operand) else .ok (negated operand)) =
      .ok after ∧ Stands bindings (-value) after := by
  split
  · next isConstant =>
    refine folded_stands stands.neg ?_
    rw [names, names_eq_nil_of_isConstant isConstant]
  · exact ⟨_, rfl, negated_stands stands⟩

/-- A rebuilt operation stands for the value of the operation. -/
theorem rebuiltOperation_stands (operator : BinaryOperator)
    (leftStands : Stands bindings leftValue left) (rightStands : Stands bindings rightValue right)
    (finite : isFinite (combine operator leftValue rightValue) = true) :
    ∃ after, (if left.isConstant && right.isConstant then folded (binary operator left right)
        else .ok (withoutNeutral operator left right)) = .ok after ∧
      Stands bindings (combine operator leftValue rightValue) after := by
  split
  · next both =>
    obtain ⟨leftConstant, rightConstant⟩ := Bool.and_eq_true_iff.1 both
    refine folded_stands (leftStands.binary operator rightStands finite) ?_
    rw [names, names_eq_nil_of_isConstant leftConstant, names_eq_nil_of_isConstant rightConstant]
    rfl
  · exact ⟨_, rfl, withoutNeutral_stands operator leftStands rightStands finite⟩

/-- A rebuilt call stands for the value it stood for. -/
theorem rebuiltCall_stands {name : String} {arguments : List (Expr ν)}
    (stands : Stands bindings value (call name arguments)) :
    ∃ after, (if arguments.all isConstant then folded (call name arguments)
        else .ok (call name arguments)) = .ok after ∧ Stands bindings value after := by
  split
  · next all =>
    refine folded_stands stands ?_
    rw [names, namesOfAll_eq_nil_of_isConstant all]
  · exact ⟨_, rfl, stands⟩

/-- A pass gives a tree that stands for the same value. -/
theorem pass_stands (stands : Stands bindings value tree) :
    ∃ after, pass tree = .ok after ∧ Stands bindings value after := by
  induction tree generalizing value with
  | const constant => exact ⟨_, rfl, stands⟩
  | var name => exact ⟨_, rfl, stands⟩
  | neg operand inductionHypothesis =>
    obtain ⟨rebuilt, passed, rebuiltStands⟩ := inductionHypothesis stands.of_neg
    obtain ⟨after, finished, afterStands⟩ := rebuiltNegation_stands rebuiltStands
    refine ⟨after, ?_, afterStands.trans (Lawful.neg_neg stands.isFinite_value)⟩
    rw [pass, passed]
    exact finished
  | binary operator left right leftHypothesis rightHypothesis =>
    obtain ⟨leftValue, rightValue, leftStands, rightStands, finite, equal⟩ :=
      stands.exists_of_binary
    obtain ⟨newLeft, leftPassed, newLeftStands⟩ := leftHypothesis leftStands
    obtain ⟨newRight, rightPassed, newRightStands⟩ := rightHypothesis rightStands
    obtain ⟨after, finished, afterStands⟩ :=
      rebuiltOperation_stands operator newLeftStands newRightStands finite
    refine ⟨after, ?_, afterStands.trans equal⟩
    rw [pass, leftPassed, rightPassed]
    exact finished
  | call name arguments inductionHypothesis =>
    rcases (callsAccepted_call_iff.1 stands.accepted).1 with
      ⟨function, argument, registered, rfl⟩ | ⟨argument, base, registered, rfl⟩
    · obtain ⟨_, argumentStands, finite, equal⟩ := stands.exists_of_call_one registered
      obtain ⟨newArgument, passed, newStands⟩ :=
        inductionHypothesis argument (by simp) argumentStands
      obtain ⟨after, finished, afterStands⟩ :=
        rebuiltCall_stands (newStands.call_one registered finite)
      refine ⟨after, ?_, afterStands.trans equal⟩
      rw [pass]
      simp only [passAll, passed]
      exact finished
    · obtain ⟨_, _, argumentStands, baseStands, finite, equal⟩ :=
        stands.exists_of_call_two registered
      obtain ⟨newArgument, argumentPassed, newArgumentStands⟩ :=
        inductionHypothesis argument (by simp) argumentStands
      obtain ⟨newBase, basePassed, newBaseStands⟩ :=
        inductionHypothesis base (by simp) baseStands
      obtain ⟨after, finished, afterStands⟩ :=
        rebuiltCall_stands (newArgumentStands.call_two registered newBaseStands finite)
      refine ⟨after, ?_, afterStands.trans equal⟩
      rw [pass]
      simp only [passAll, argumentPassed, basePassed]
      exact finished

/-- However many passes are made, the simplified tree stands for the same value. -/
theorem simplify_stands (passes : Nat) (stands : Stands bindings value tree) :
    ∃ simplified, simplify passes tree = .ok simplified ∧
      Stands bindings value simplified.tree := by
  induction passes generalizing tree with
  | zero => exact ⟨⟨tree, false⟩, rfl, stands⟩
  | succ passes inductionHypothesis =>
    obtain ⟨next, passed, nextStands⟩ := pass_stands stands
    rw [simplify, passed]
    by_cases settled : unchanged next tree = true
    · refine ⟨⟨next, true⟩, ?_, nextStands⟩
      simp [settled, bind, Except.bind, pure, Except.pure]
    · obtain ⟨simplified, succeeded, simplifiedStands⟩ := inductionHypothesis nextStands
      refine ⟨simplified, ?_, simplifiedStands⟩
      simpa [settled, bind, Except.bind] using succeeded

/-- Where every part of a tree has a finite value, so has every part of the simplified tree, and
the values of both trees are equal, whatever the limit on passes is. -/
theorem simplify_keeps_value (passes : Nat) (tree : Expr ν) (accepted : tree.CallsAccepted)
    (bindings : Bindings ν) (finite : tree.Throughout (HasFiniteValue bindings)) :
    ∃ simplified value result, simplify passes tree = .ok simplified ∧
      simplified.tree.Throughout (HasFiniteValue bindings) ∧
      tree.evaluate bindings = .ok value ∧
      simplified.tree.evaluate bindings = .ok result ∧ (result == value) = true := by
  obtain ⟨value, known, stands⟩ := Stands.exists_of_finite accepted finite
  obtain ⟨simplified, succeeded, simplifiedStands⟩ := simplify_stands passes stands
  obtain ⟨result, resultKnown, equal⟩ := simplifiedStands.equal
  exact ⟨simplified, value, result, succeeded, simplifiedStands.finite, known, resultKnown, equal⟩

/-- The real value of `--x * 1 + log(x, 2)` at three is kept by two passes. So is that of `x + 0`
where `x` is a zero with a sign, which is added to a zero without one: the values before and after
are different zeros, and equal. -/
theorem simplify_keeps_real_and_signed_values :
    (let tree : Expr ℝ := binary .add (binary .mul (neg (neg (var "x"))) (const (ofNat 1)))
      (call "log" [var "x", const (ofNat 2)])
    let bindings : Bindings ℝ := .single "x" 3
    tree.CallsAccepted ∧ tree.Throughout (HasFiniteValue bindings) ∧
      ∃ simplified value result, simplify 2 tree = .ok simplified ∧
        simplified.tree.Throughout (HasFiniteValue bindings) ∧
        tree.evaluate bindings = .ok value ∧
        simplified.tree.evaluate bindings = .ok result ∧ (result == value) = true) ∧
    let tree : Expr SignedRational := binary .add (var "x") (const (ofNat 0))
    let bindings : Bindings SignedRational := .single "x" (.finite 0 true)
    tree.CallsAccepted ∧ tree.Throughout (HasFiniteValue bindings) ∧
      ∃ simplified value result, simplify 2 tree = .ok simplified ∧
        simplified.tree.Throughout (HasFiniteValue bindings) ∧
        tree.evaluate bindings = .ok value ∧
        simplified.tree.evaluate bindings = .ok result ∧ (result == value) = true ∧
        result ≠ value := by
  refine ⟨?real, ?signed⟩
  case real =>
    intro tree bindings
    have accepted : tree.CallsAccepted := by
      simp [tree, callsAccepted_call_iff, Elementary.ofName?_eq_some_iff, Elementary.name]
    have finite : tree.Throughout (HasFiniteValue bindings) := by
      have registered : Elementary.ofName? "log" = some .log := Elementary.ofName?_eq_some_iff.2 rfl
      have bound : bindings "x" = some 3 := rfl
      simp [tree, HasFiniteValue, evaluate, evaluateIn, evaluateAllIn, registered, bound, bind,
        Except.bind, pure, Except.pure, Interpretation.numeric, Interpretation.call]
    exact ⟨accepted, finite, simplify_keeps_value 2 tree accepted bindings finite⟩
  case signed =>
    intro tree bindings
    have accepted : tree.CallsAccepted := by simp [tree]
    have sum : tree.evaluate bindings = .ok (.finite 0 false) := by decide +kernel
    have finite : tree.Throughout (HasFiniteValue bindings) :=
      throughout_binary.2
        ⟨⟨_, sum, rfl⟩, throughout_var.2 ⟨_, rfl, rfl⟩, throughout_const.2 ⟨_, rfl, rfl⟩⟩
    have operand : simplify 2 tree = .ok ⟨var "x", true⟩ := by cbv
    obtain ⟨simplified, value, result, succeeded, finiteAfter, known, resultKnown, equal⟩ :=
      simplify_keeps_value 2 tree accepted bindings finite
    refine ⟨accepted, finite, simplified, value, result, succeeded, finiteAfter, known,
      resultKnown, equal, ?_⟩
    obtain rfl : ⟨var "x", true⟩ = simplified := Except.ok.inj (operand.symm.trans succeeded)
    obtain rfl : .finite 0 false = value := Except.ok.inj (sum.symm.trans known)
    obtain rfl : .finite 0 true = result := Except.ok.inj resultKnown
    decide

end Tangent.Expr
