import Tangent.Proofs.Calculus.Slope
import Tangent.Proofs.Expr.Derivative
import Tangent.Proofs.Number.Binary64

/-!
# Derivatives are slopes

The derivative of a tree evaluates to the slope of the tree's values along the variable, wherever
the rule of each of its nodes applies. Each rule of calculus is a lemma on trees with a rate; the
induction over the tree only finds the rule that the node was differentiated by.
-/

namespace Tangent

namespace Expr

variable {ν : Type} [Number ν]

theorem along_apply {name : String} {assignment : String → ℝ} {point : ℝ} {argument : Expr ν}
    (function : Elementary) (accepted : argument.CallsAccepted) :
    (apply function argument).along name assignment point =
      function.onReals (argument.along name assignment point) :=
  realValue_call_one (Elementary.ofName?_eq_some_iff.2 rfl) accepted

section Values

variable {name : String} {assignment : String → ℝ} {point : ℝ} {left right argument rate : Expr ν}

theorem along_whole [Number.Lawful ν] {number : Nat} (small : number ≤ 2) :
    (whole number : Expr ν).along name assignment point = number := by
  rw [along, whole, realValue_const, Number.Lawful.extended_ofNat number small]
  simp [Extended.toReal]

/-- The rule of a function multiplies the slope of the function with the derivative of its
argument. -/
theorem along_functionRule [Number.Lawful ν] (function : Elementary)
    (accepted : argument.CallsAccepted) (rateAccepted : rate.CallsAccepted) :
    (functionRule function argument rate).along name assignment point =
      function.slope (argument.along name assignment point) * rate.along name assignment point := by
  cases function <;>
    simp [functionRule, oneMinusSquare, Elementary.slope, along_neg, along_binary, along_apply,
      along_whole, accepted, rateAccepted, BinaryOperator.onReals, Elementary.onReals] <;>
    ring

end Values

/-- A tree of accepted calls whose value is the slope of another one's values along a variable. -/
structure HasRate (name : String) (assignment : String → ℝ) (point : ℝ) (tree rate : Expr ν) :
    Prop where
  accepted : tree.CallsAccepted
  rateAccepted : rate.CallsAccepted
  slope : HasDerivAt (tree.along name assignment) (rate.along name assignment point) point

namespace HasRate

variable {name : String} {assignment : String → ℝ} {point : ℝ}
  {operand left right leftRate rightRate rate : Expr ν}

theorem neg (operandRate : HasRate name assignment point operand rate) :
    HasRate name assignment point (neg operand) (neg rate) where
  accepted := callsAccepted_neg.2 operandRate.accepted
  rateAccepted := callsAccepted_neg.2 operandRate.rateAccepted
  slope := by
    have values : (Expr.neg operand).along name assignment =
        fun x => -operand.along name assignment x :=
      funext fun _ => along_neg operandRate.accepted
    rw [values, along_neg operandRate.rateAccepted]
    exact operandRate.slope.neg

/-- The values of an operation are those of its operands, combined. -/
theorem along_eq (operator : BinaryOperator)
    (leftRated : HasRate name assignment point left leftRate)
    (rightAccepted : right.CallsAccepted) :
    (binary operator left right).along name assignment = fun x =>
      operator.onReals (left.along name assignment x) (right.along name assignment x) :=
  funext fun _ => along_binary operator leftRated.accepted rightAccepted

section Rational

variable (leftRated : HasRate name assignment point left leftRate)
  (rightRated : HasRate name assignment point right rightRate)

include leftRated rightRated

theorem add : HasRate name assignment point (binary .add left right)
    (binary .add leftRate rightRate) where
  accepted := callsAccepted_binary.2 ⟨leftRated.accepted, rightRated.accepted⟩
  rateAccepted := callsAccepted_binary.2 ⟨leftRated.rateAccepted, rightRated.rateAccepted⟩
  slope := by
    rw [leftRated.along_eq .add rightRated.accepted,
      along_binary .add leftRated.rateAccepted rightRated.rateAccepted]
    exact leftRated.slope.add rightRated.slope

theorem sub : HasRate name assignment point (binary .sub left right)
    (binary .sub leftRate rightRate) where
  accepted := callsAccepted_binary.2 ⟨leftRated.accepted, rightRated.accepted⟩
  rateAccepted := callsAccepted_binary.2 ⟨leftRated.rateAccepted, rightRated.rateAccepted⟩
  slope := by
    rw [leftRated.along_eq .sub rightRated.accepted,
      along_binary .sub leftRated.rateAccepted rightRated.rateAccepted]
    exact leftRated.slope.sub rightRated.slope

theorem mul : HasRate name assignment point (binary .mul left right)
    (binary .add (binary .mul leftRate right) (binary .mul left rightRate)) where
  accepted := callsAccepted_binary.2 ⟨leftRated.accepted, rightRated.accepted⟩
  rateAccepted := by
    simp [leftRated.accepted, rightRated.accepted, leftRated.rateAccepted, rightRated.rateAccepted]
  slope := by
    rw [leftRated.along_eq .mul rightRated.accepted]
    refine (leftRated.slope.mul rightRated.slope).congr_deriv ?_
    simp [along_binary, leftRated.accepted, rightRated.accepted, leftRated.rateAccepted,
      rightRated.rateAccepted, BinaryOperator.onReals]

/-- Where the divisor is not zero, a quotient has the rate of its rule. -/
theorem quotient [Number.Lawful ν] (nonzero : right.along name assignment point ≠ 0) :
    HasRate name assignment point (binary .div left right)
      (quotientRule left right leftRate rightRate) where
  accepted := callsAccepted_binary.2 ⟨leftRated.accepted, rightRated.accepted⟩
  rateAccepted := by
    simp [quotientRule, leftRated.accepted, rightRated.accepted, leftRated.rateAccepted,
      rightRated.rateAccepted]
  slope := by
    rw [leftRated.along_eq .div rightRated.accepted]
    refine (leftRated.slope.div rightRated.slope nonzero).congr_deriv ?_
    simp [quotientRule, along_binary, along_whole, leftRated.accepted, rightRated.accepted,
      leftRated.rateAccepted, rightRated.rateAccepted, BinaryOperator.onReals]

end Rational

/-- A power whose exponent is free of the variable has the rate of its rule, unless its base is zero
and the exponent below one. -/
theorem fixedExponent [Number.Lawful ν] (baseRated : HasRate name assignment point left leftRate)
    (exponentAccepted : right.CallsAccepted) (absent : name ∉ right.names)
    (defined : left.along name assignment point ≠ 0 ∨ 1 ≤ right.along name assignment point) :
    HasRate name assignment point (binary .pow left right)
      (binary .mul (binary .mul right (binary .pow left (binary .sub right (whole 1))))
        leftRate) where
  accepted := callsAccepted_binary.2 ⟨baseRated.accepted, exponentAccepted⟩
  rateAccepted := by simp [baseRated.accepted, baseRated.rateAccepted, exponentAccepted]
  slope := by
    have values : (binary .pow left right).along name assignment = fun x =>
        left.along name assignment x ^ right.along name assignment point := by
      rw [baseRated.along_eq .pow exponentAccepted]
      funext x
      rw [along_eq_of_not_mem absent assignment x point]
      rfl
    rw [values]
    refine (baseRated.slope.rpow_const defined).congr_deriv ?_
    simp [along_binary, along_whole, baseRated.accepted, baseRated.rateAccepted,
      exponentAccepted, BinaryOperator.onReals]
    ring

/-- A power with a positive base that is free of the variable has the rate of its rule. -/
theorem fixedBase (baseAccepted : left.CallsAccepted) (absent : name ∉ left.names)
    (exponentRated : HasRate name assignment point right rightRate)
    (positive : 0 < left.along name assignment point) :
    HasRate name assignment point (binary .pow left right)
      (binary .mul (binary .mul (binary .pow left right) (apply .log left)) rightRate) where
  accepted := callsAccepted_binary.2 ⟨baseAccepted, exponentRated.accepted⟩
  rateAccepted := by simp [baseAccepted, exponentRated.accepted, exponentRated.rateAccepted]
  slope := by
    have values : (binary .pow left right).along name assignment = fun x =>
        left.along name assignment point ^ right.along name assignment x := by
      funext x
      rw [along_binary .pow baseAccepted exponentRated.accepted,
        along_eq_of_not_mem absent assignment x point]
      rfl
    rw [values]
    refine (exponentRated.slope.const_rpow positive).congr_deriv ?_
    simp [along_binary, along_apply, baseAccepted, exponentRated.accepted,
      exponentRated.rateAccepted, BinaryOperator.onReals, Elementary.onReals]
    ring

/-- A power with a positive base has the rate of the general rule. -/
theorem power (baseRated : HasRate name assignment point left leftRate)
    (exponentRated : HasRate name assignment point right rightRate)
    (positive : 0 < left.along name assignment point) :
    HasRate name assignment point (binary .pow left right)
      (binary .mul (binary .pow left right)
        (binary .add (binary .mul rightRate (apply .log left))
          (binary .div (binary .mul right leftRate) left))) where
  accepted := callsAccepted_binary.2 ⟨baseRated.accepted, exponentRated.accepted⟩
  rateAccepted := by
    simp [baseRated.accepted, baseRated.rateAccepted, exponentRated.accepted,
      exponentRated.rateAccepted]
  slope := by
    rw [baseRated.along_eq .pow exponentRated.accepted]
    refine (baseRated.slope.rpow exponentRated.slope positive).congr_deriv ?_
    rw [Real.rpow_sub_one positive.ne']
    simp [along_binary, along_apply, baseRated.accepted, baseRated.rateAccepted,
      exponentRated.accepted, exponentRated.rateAccepted, BinaryOperator.onReals,
      Elementary.onReals]
    ring

/-- Where the rule of a function applies, its call has the rate of that rule. -/
theorem call [Number.Lawful ν] {called : String} {function : Elementary}
    (registered : Elementary.ofName? called = some function)
    (argumentRated : HasRate name assignment point operand rate)
    (smooth : function.SmoothAt (operand.along name assignment point)) :
    HasRate name assignment point (call called [operand]) (functionRule function operand rate) where
  accepted := callsAccepted_call_iff.2
    ⟨.inl ⟨function, operand, registered, rfl⟩, by simpa using argumentRated.accepted⟩
  rateAccepted :=
    callsAccepted_functionRule function argumentRated.accepted argumentRated.rateAccepted
  slope := by
    have values : (Expr.call called [operand]).along name assignment =
        function.onReals ∘ operand.along name assignment :=
      funext fun x => realValue_call_one registered argumentRated.accepted
    rw [values, along_functionRule function argumentRated.accepted
      argumentRated.rateAccepted]
    exact (Elementary.hasDerivAt_onReals smooth).comp point argumentRated.slope

/-- A logarithm to a base has the rate of the quotient of logarithms that it is. -/
theorem logarithm [Number.Lawful ν] {called : String}
    (registered : Elementary.ofName? called = some .log)
    (argumentRated : HasRate name assignment point left leftRate)
    (baseRated : HasRate name assignment point right rightRate)
    (positive : 0 < left.along name assignment point)
    (basePositive : 0 < right.along name assignment point)
    (baseNotOne : right.along name assignment point ≠ 1) :
    HasRate name assignment point (Expr.call called [left, right])
      (quotientRule (apply .log left) (apply .log right) (functionRule .log left leftRate)
        (functionRule .log right rightRate)) := by
  have known : Elementary.ofName? Elementary.log.name = some .log :=
    Elementary.ofName?_eq_some_iff.2 rfl
  have numerator : HasRate name assignment point (apply .log left)
      (functionRule .log left leftRate) := argumentRated.call known positive
  have denominator : HasRate name assignment point (apply .log right)
      (functionRule .log right rightRate) := baseRated.call known basePositive
  have nonzero : (apply .log right).along name assignment point ≠ 0 := by
    rw [along_apply .log baseRated.accepted]
    exact Real.log_ne_zero_of_pos_of_ne_one basePositive baseNotOne
  have quotient := HasRate.quotient numerator denominator nonzero
  refine ⟨?_, quotient.rateAccepted, ?_⟩
  · exact callsAccepted_call_iff.2 ⟨.inr ⟨left, right, registered, rfl⟩,
      by simpa using ⟨argumentRated.accepted, baseRated.accepted⟩⟩
  · have values : (Expr.call called [left, right]).along name assignment =
        (binary .div (apply .log left) (apply .log right)).along name assignment := by
      funext x
      rw [along_binary .div numerator.accepted denominator.accepted,
        along_apply .log argumentRated.accepted, along_apply .log baseRated.accepted]
      exact realValue_call_two registered argumentRated.accepted baseRated.accepted
    rw [values]
    exact quotient.slope

end HasRate

/-- Where the rule of the root of a tree applies, in terms of the values along a variable at a
point. A power needs a positive base, unless its exponent is free of the variable and whole. -/
def RuleApplies (name : String) (assignment : String → ℝ) (point : ℝ) : Expr ν → Prop
  | binary .div _ right => right.along name assignment point ≠ 0
  | binary .pow base exponent =>
    0 < base.along name assignment point ∨
      name ∉ exponent.names ∧ (∃ whole : ℤ, exponent.along name assignment point = whole) ∧
        (base.along name assignment point ≠ 0 ∨ 1 ≤ exponent.along name assignment point)
  | call called [argument] =>
    ∀ function, Elementary.ofName? called = some function →
      function.SmoothAt (argument.along name assignment point)
  | call _ [argument, base] =>
    0 < argument.along name assignment point ∧ 0 < base.along name assignment point ∧
      base.along name assignment point ≠ 1
  | _ => True

/-- Where the rule of an operation applies, the operation has the rate of that rule. -/
theorem HasRate.operation [Number.Lawful ν] {name : String} {assignment : String → ℝ} {point : ℝ}
    {left right leftRate rightRate : Expr ν} (operator : BinaryOperator)
    (leftRated : HasRate name assignment point left leftRate)
    (rightRated : HasRate name assignment point right rightRate)
    (applies : RuleApplies name assignment point (binary operator left right)) :
    HasRate name assignment point (binary operator left right)
      (operationRule name operator left right leftRate rightRate) := by
  cases operator with
  | add => exact leftRated.add rightRated
  | sub => exact leftRated.sub rightRated
  | mul => exact leftRated.mul rightRated
  | div => exact leftRated.quotient rightRated applies
  | pow =>
    change HasRate name assignment point _ (powerRule name left right leftRate rightRate)
    unfold powerRule
    by_cases inExponent : name ∈ right.names
    · have positive : 0 < left.along name assignment point :=
        applies.resolve_right fun fixed => fixed.1 inExponent
      rw [if_neg (by simpa using inExponent)]
      by_cases inBase : name ∈ left.names
      · rw [if_neg (by simpa using inBase)]
        exact leftRated.power rightRated positive
      · rw [if_pos (by simpa using inBase)]
        exact fixedBase leftRated.accepted inBase rightRated positive
    · rw [if_pos (by simpa using inExponent)]
      have defined : left.along name assignment point ≠ 0 ∨
          1 ≤ right.along name assignment point := by
        rcases applies with positive | ⟨_, _, defined⟩
        · exact .inl positive.ne'
        · exact defined
      exact fixedExponent leftRated rightRated.accepted inExponent defined

section Derivative

variable {name : String} {assignment : String → ℝ} {point : ℝ} {tree : Expr ν}

theorem hasRate_const [Number.Lawful ν] (value : ν) :
    HasRate name assignment point (const value) (whole 0) where
  accepted := callsAccepted_const value
  rateAccepted := callsAccepted_whole 0
  slope := by
    rw [along_whole (Nat.zero_le 2), Nat.cast_zero]
    exact hasDerivAt_const point _

theorem hasRate_var [Number.Lawful ν] (other : String) :
    HasRate name assignment point (var other)
      (if other = name then whole 1 else whole 0 : Expr ν) where
  accepted := callsAccepted_var other
  rateAccepted := by split <;> exact callsAccepted_whole _
  slope := by
    split
    · next same =>
      subst same
      have values : (var other : Expr ν).along other assignment = fun x => x :=
        funext fun x => (realValue_var other).trans (Function.update_self other x assignment)
      rw [values, along_whole (by decide), Nat.cast_one]
      exact hasDerivAt_id' point
    · next different =>
      have values : (var other : Expr ν).along name assignment = fun _ => assignment other :=
        funext fun x => (realValue_var other).trans (Function.update_of_ne different x assignment)
      rw [values, along_whole (Nat.zero_le 2), Nat.cast_zero]
      exact hasDerivAt_const point _

/-- Where the rules of a tree's nodes apply, its derivative has the slope of its values. -/
theorem exists_hasRate [Number.Lawful ν] (accepted : tree.CallsAccepted)
    (applies : tree.Throughout (RuleApplies name assignment point)) :
    ∃ rate, tree.derivative name = .ok rate ∧ HasRate name assignment point tree rate := by
  induction tree with
  | const value => exact ⟨_, rfl, hasRate_const value⟩
  | var other => exact ⟨_, rfl, hasRate_var other⟩
  | neg operand inductionHypothesis =>
    obtain ⟨rate, known, rated⟩ := inductionHypothesis (callsAccepted_neg.1 accepted)
      (throughout_neg.1 applies).2
    exact ⟨neg rate, by rw [derivative, known]; rfl, rated.neg⟩
  | binary operator left right leftHypothesis rightHypothesis =>
    obtain ⟨leftAccepted, rightAccepted⟩ := callsAccepted_binary.1 accepted
    obtain ⟨applied, leftApplies, rightApplies⟩ := throughout_binary.1 applies
    obtain ⟨leftRate, leftKnown, leftRated⟩ := leftHypothesis leftAccepted leftApplies
    obtain ⟨rightRate, rightKnown, rightRated⟩ := rightHypothesis rightAccepted rightApplies
    exact ⟨_, derivative_binary operator leftKnown rightKnown,
      leftRated.operation operator rightRated applied⟩
  | call called arguments inductionHypothesis =>
    obtain ⟨root, argumentsAccepted⟩ := callsAccepted_call_iff.1 accepted
    obtain ⟨applied, argumentsApply⟩ := throughout_call.1 applies
    rcases root with ⟨function, argument, registered, rfl⟩ | ⟨argument, base, registered, rfl⟩
    · obtain ⟨rate, known, rated⟩ := inductionHypothesis argument (by simp)
        (argumentsAccepted argument (by simp)) (argumentsApply argument (by simp))
      exact ⟨_, derivative_call_one registered known,
        rated.call registered (applied function registered)⟩
    · obtain ⟨argumentRate, argumentKnown, argumentRated⟩ := inductionHypothesis argument (by simp)
        (argumentsAccepted argument (by simp)) (argumentsApply argument (by simp))
      obtain ⟨baseRate, baseKnown, baseRated⟩ := inductionHypothesis base (by simp)
        (argumentsAccepted base (by simp)) (argumentsApply base (by simp))
      obtain ⟨positive, basePositive, baseNotOne⟩ := applied
      exact ⟨_, derivative_call_two registered argumentKnown baseKnown,
        argumentRated.logarithm registered baseRated positive basePositive baseNotOne⟩

/-- The derivative of a tree is found, and at every point where the rules of all nodes apply its
value is the slope of the values of the tree along the variable. -/
theorem derivative_eq_slope [Number.Lawful ν] (tree : Expr ν) (accepted : tree.CallsAccepted)
    (name : String) (assignment : String → ℝ) (point : ℝ)
    (applies : tree.Throughout (RuleApplies name assignment point)) :
    ∃ rate, tree.derivative name = .ok rate ∧
      (∀ x, tree.evaluateIn .real (fun other => some (Function.update assignment name x other)) =
        .ok (tree.along name assignment x)) ∧
      rate.evaluateIn .real (fun other => some (Function.update assignment name point other)) =
        .ok (rate.along name assignment point) ∧
      HasDerivAt (tree.along name assignment) (rate.along name assignment point) point := by
  obtain ⟨rate, known, rated⟩ := exists_hasRate accepted applies
  exact ⟨rate, known, fun x => evaluateIn_real accepted (Function.update assignment name x),
    evaluateIn_real rated.rateAccepted (Function.update assignment name point), rated.slope⟩

/-- The rules apply to a whole power of a negative number and to a logarithm to a base. -/
theorem derivative_eq_slope_at_negative :
    let tree : Expr Float := binary .add (binary .pow (var "x") (const (-3)))
      (call "log" [call "abs" [var "x"], const 2])
    let origin : String → ℝ := fun _ => 0
    tree.CallsAccepted ∧ tree.Throughout (RuleApplies "x" origin (-2)) ∧
      ∃ rate, tree.derivative "x" = .ok rate ∧
        (∀ x, tree.evaluateIn .real (fun other => some (Function.update origin "x" x other)) =
          .ok (tree.along "x" origin x)) ∧
        rate.evaluateIn .real (fun other => some (Function.update origin "x" (-2) other)) =
          .ok (rate.along "x" origin (-2)) ∧
        HasDerivAt (tree.along "x" origin) (rate.along "x" origin (-2)) (-2) := by
  intro tree origin
  have accepted : tree.CallsAccepted := by decide
  have base : (var "x" : Expr Float).along "x" origin (-2) = -2 :=
    Function.update_self "x" (-2) origin
  have exponent : (const (-3) : Expr Float).along "x" origin (-2) = -3 := by
    have known : Scalar.extended (-3 : Float) = .finite (-3) := by decide +kernel
    rw [along, realValue_const, known]
    simp [Extended.toReal]
  have known : Elementary.ofName? "abs" = some .abs := by decide
  have absolute : (call "abs" [var "x"] : Expr Float).along "x" origin (-2) = 2 := by
    rw [along, realValue_call_one known (callsAccepted_var "x")]
    simp [Elementary.onReals]
  have two : (const 2 : Expr Float).along "x" origin (-2) = 2 := by
    have known : Scalar.extended (2 : Float) = .finite 2 := by decide +kernel
    rw [along, realValue_const, known]
    simp [Extended.toReal]
  have power : RuleApplies "x" origin (-2) (binary .pow (var "x") (const (-3 : Float))) := by
    refine .inr ⟨by simp [names], ⟨-3, by rw [exponent]; norm_num⟩, .inl ?_⟩
    rw [base]
    norm_num
  have inner : RuleApplies "x" origin (-2) (call "abs" [var "x"] : Expr Float) := by
    intro function registered
    obtain rfl : Elementary.abs = function := Option.some.inj (known.symm.trans registered)
    change (var "x" : Expr Float).along "x" origin (-2) ≠ 0
    rw [base]
    norm_num
  have outer : RuleApplies "x" origin (-2)
      (call "log" [call "abs" [var "x"], const 2] : Expr Float) := by
    simp only [RuleApplies, absolute, two]
    norm_num
  have applies : tree.Throughout (RuleApplies "x" origin (-2)) := by
    simp only [tree, throughout_binary, throughout_call, throughout_const, throughout_var,
      List.forall_mem_cons, power, inner, outer]
    simp [RuleApplies]
  exact ⟨accepted, applies, derivative_eq_slope tree accepted "x" _ _ applies⟩

end Derivative

end Expr

end Tangent
