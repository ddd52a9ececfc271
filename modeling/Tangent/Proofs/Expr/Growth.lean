import Mathlib.Tactic.Linarith
import Mathlib.Tactic.Ring
import Tangent.Number.Binary64
import Tangent.Proofs.Expr.Vocabulary

/-!
# Growth of derivatives

Every rule of calculus copies its operands a few times and adds a few nodes of its own, so a
derivative has at most three times the square of the nodes of its tree. The logarithm to a base is
no exception: its derivative is that of a quotient which is larger than the call itself, but the
square leaves room for that.
-/

namespace Tangent.Expr

variable {ν : Type} [Arithmetic ν]

/-- A logarithm is differentiated by its rule, once its argument is. -/
theorem derivative_apply_log (name : String) (argument : Expr ν) :
    (apply .log argument).derivative name =
      functionRule .log argument <$> argument.derivative name := by
  have registered : Elementary.ofName? Elementary.log.name = some .log :=
    Elementary.ofName?_eq_some_iff.2 rfl
  rw [apply, derivative, registered]
  cases known : argument.derivative name <;> simp only [derivatives, known] <;> rfl

/-- A logarithm to a base is differentiated as the quotient of two logarithms, also where that
fails. -/
theorem derivative_logarithm_eq_quotient {name called : String} (argument base : Expr ν)
    (registered : Elementary.ofName? called = some .log) :
    (call called [argument, base]).derivative name =
      (binary .div (apply .log argument) (apply .log base)).derivative name := by
  have quotient : (binary .div (apply .log argument) (apply .log base)).derivative name = (do
      let leftRate ← (apply .log argument).derivative name
      let rightRate ← (apply .log base).derivative name
      return quotientRule (apply .log argument) (apply .log base) leftRate rightRate) := by
    rw [derivative]
    rfl
  rw [quotient, derivative_apply_log, derivative_apply_log, derivative, registered]
  cases argumentKnown : argument.derivative name <;> cases baseKnown : base.derivative name <;>
    simp only [derivatives, argumentKnown, baseKnown] <;> rfl

theorem count_functionRule_le (function : Elementary) (argument rate : Expr ν) :
    (functionRule function argument rate).count ≤ rate.count + argument.count + 7 := by
  cases function <;>
    simp only [functionRule, apply, oneMinusSquare, whole, count, countAll] <;> omega

theorem count_quotientRule (left right leftRate rightRate : Expr ν) :
    (quotientRule left right leftRate rightRate).count =
      leftRate.count + rightRate.count + left.count + 2 * right.count + 6 := by
  simp only [quotientRule, whole, count]
  omega

theorem count_operationRule_le (name : String) (operator : BinaryOperator)
    (left right leftRate rightRate : Expr ν) :
    (operationRule name operator left right leftRate rightRate).count ≤
      leftRate.count + rightRate.count + 3 * left.count + 2 * right.count + 7 := by
  cases operator with
  | pow =>
    rw [operationRule, powerRule]
    split
    · simp only [whole, count]
      omega
    · split <;> simp only [apply, count, countAll] <;> omega
  | div =>
    rw [operationRule, count_quotientRule]
    omega
  | _ =>
    simp only [operationRule, count]
    omega

/-- A tree of accepted calls has a derivative with at most three times the square of its nodes. -/
theorem exists_derivative_count_le (name : String) {tree : Expr ν} (accepted : tree.CallsAccepted) :
    ∃ rate, tree.derivative name = .ok rate ∧ rate.count ≤ 3 * tree.count ^ 2 := by
  induction tree with
  | const value => exact ⟨whole 0, rfl, show 1 ≤ 3 * 1 ^ 2 by decide⟩
  | var other =>
    refine ⟨_, rfl, ?_⟩
    split <;> exact show 1 ≤ 3 * 1 ^ 2 by decide
  | neg operand inductionHypothesis =>
    obtain ⟨rate, known, bound⟩ := inductionHypothesis (callsAccepted_neg.1 accepted)
    refine ⟨neg rate, by rw [derivative, known]; rfl, ?_⟩
    have square : (operand.count + 1) ^ 2 = operand.count ^ 2 + 2 * operand.count + 1 := by ring
    simp only [count, square]
    omega
  | binary operator left right leftHypothesis rightHypothesis =>
    obtain ⟨leftAccepted, rightAccepted⟩ := callsAccepted_binary.1 accepted
    obtain ⟨leftRate, leftKnown, leftBound⟩ := leftHypothesis leftAccepted
    obtain ⟨rightRate, rightKnown, rightBound⟩ := rightHypothesis rightAccepted
    refine ⟨_, derivative_binary operator leftKnown rightKnown, ?_⟩
    have rule := count_operationRule_le name operator left right leftRate rightRate
    have := left.count_pos
    have := right.count_pos
    refine Nat.le_trans rule ?_
    simp only [count]
    nlinarith
  | call called arguments inductionHypothesis =>
    obtain ⟨root, each⟩ := callsAccepted_call_iff.1 accepted
    rcases root with ⟨function, argument, registered, rfl⟩ | ⟨argument, base, registered, rfl⟩
    · obtain ⟨rate, known, bound⟩ :=
        inductionHypothesis argument (by simp) (each argument (by simp))
      refine ⟨_, derivative_call_one registered known, ?_⟩
      have rule := count_functionRule_le function argument rate
      have := argument.count_pos
      refine Nat.le_trans rule ?_
      simp only [count, countAll]
      nlinarith
    · obtain ⟨argumentRate, argumentKnown, argumentBound⟩ :=
        inductionHypothesis argument (by simp) (each argument (by simp))
      obtain ⟨baseRate, baseKnown, baseBound⟩ :=
        inductionHypothesis base (by simp) (each base (by simp))
      -- The quotient is larger than the call, so its bound is counted out from those of the parts.
      have leftKnown := derivative_apply_log name argument
      have rightKnown := derivative_apply_log name base
      rw [argumentKnown] at leftKnown
      rw [baseKnown] at rightKnown
      rw [derivative_logarithm_eq_quotient argument base registered]
      refine ⟨_, derivative_binary .div leftKnown rightKnown, ?_⟩
      have := argument.count_pos
      have := base.count_pos
      rw [operationRule, count_quotientRule]
      simp only [functionRule, apply, count, countAll]
      nlinarith

/-- Every tree of accepted calls has a derivative. That has no variables but those of the tree, no
constants but those of the tree and the whole numbers up to two, and at most three times the square
of the nodes of the tree. -/
theorem derivative_grows_quadratically (name : String) (tree : Expr ν)
    (accepted : tree.CallsAccepted) :
    ∃ rate, tree.derivative name = .ok rate ∧ rate.names ⊆ tree.names ∧
      (∀ value, const value ∈ rate.subtrees →
        const value ∈ tree.subtrees ∨ ∃ number ≤ 2, value = Arithmetic.ofNat number) ∧
      rate.count ≤ 3 * tree.count ^ 2 := by
  let vocabulary : Vocabulary ν :=
    ⟨(· ∈ tree.names), fun value =>
      const value ∈ tree.subtrees ∨ ∃ number ≤ 2, value = Arithmetic.ofNat number⟩
  have isOver : tree.Over vocabulary := ⟨accepted, fun _ present => present, fun _ => .inl⟩
  have wholes : vocabulary.HasWholes := fun number small => Or.inr ⟨number, small, rfl⟩
  obtain ⟨rate, known, rateOver⟩ := exists_derivative_over name wholes isOver
  obtain ⟨rate', again, bound⟩ := exists_derivative_count_le name accepted
  obtain rfl : rate = rate' := Except.ok.inj (known.symm.trans again)
  exact ⟨rate, known, rateOver.names, rateOver.constants, bound⟩

/-- The derivative of a logarithm to a base copies both parts and both derivatives. -/
theorem derivative_grows_quadratically_of_logarithm :
    let tree : Expr Float :=
      call "log" [binary .pow (var "x") (var "x"), call "acos" [neg (const (-0.0))]]
    tree.CallsAccepted ∧ tree.count = 7 ∧
      ∃ rate, tree.derivative "x" = .ok rate ∧ rate.names ⊆ tree.names ∧
        (∀ value, const value ∈ rate.subtrees →
          const value ∈ tree.subtrees ∨ ∃ number ≤ 2, value = Arithmetic.ofNat number) ∧
        rate.count ≤ 147 := by
  intro tree
  have accepted : tree.CallsAccepted := by decide
  exact ⟨accepted, rfl, derivative_grows_quadratically "x" tree accepted⟩

end Tangent.Expr
