import Tangent.Proofs.Expr.Shrinking
import Tangent.Proofs.Number.Infinite
import Tangent.Proofs.Number.Zero

/-!
# How many passes it takes

A pass leaves nothing to be folded or dropped but what it has only just made: below `0 - u` a
negation may end up on top of another one, which the next pass takes away. Where that uncovers an
infinity, operations on it can be folded at last, and if a zero comes of it, the same may happen
again one level up. Two numbers keep count of this for a tree that passes have been made over: how
many passes may still change it, and how many it takes at most until it is a finite constant. Each
pass brings both down by one, and a tree is at rest when the first of them is zero.
-/

namespace Tangent

variable {ν : Type}

namespace Expr

/-- Whether a tree is a negation. -/
def isNegation : Expr ν → Bool
  | neg _ => true
  | _ => false

mutual

/-- How many passes may change a tree that a pass has left behind. -/
def passesToRest : Expr ν → Nat
  | const _ => 0
  | var _ => 0
  | neg operand => max (if operand.isNegation then 1 else 0) operand.passesToRest
  | binary operator left right =>
    max (max left.passesToRest right.passesToRest)
      (if operator = .sub ∧ 0 < left.passesToValue then left.passesToValue + 1 else 0)
  | call _ arguments => mostPassesToRest arguments

/-- How many passes it takes such a tree to be a finite constant, if it ever comes to be one. -/
def passesToValue : Expr ν → Nat
  | const _ => 0
  | var _ => 0
  | neg operand => operand.passesToValue
  | binary operator left right =>
    max (if operator = .add ∨ operator = .sub then left.passesToValue else left.passesToRest)
      right.passesToRest
  | call _ arguments => mostPassesToRest arguments

/-- How many passes may change some of the trees that a pass has left behind. -/
def mostPassesToRest : List (Expr ν) → Nat
  | [] => 0
  | tree :: rest => max tree.passesToRest (mostPassesToRest rest)

end

theorem mostPassesToRest_le_iff {trees : List (Expr ν)} {bound : Nat} :
    mostPassesToRest trees ≤ bound ↔ ∀ tree ∈ trees, tree.passesToRest ≤ bound := by
  induction trees with
  | nil => simp [mostPassesToRest]
  | cons tree rest inductionHypothesis =>
    simp only [mostPassesToRest, Nat.max_le, inductionHypothesis, List.forall_mem_cons]

/-- A tree at rest has the value it comes to. -/
theorem passesToValue_le (tree : Expr ν) : tree.passesToValue ≤ tree.passesToRest := by
  induction tree with
  | const value => exact Nat.le_refl 0
  | var name => exact Nat.le_refl 0
  | neg operand inductionHypothesis =>
    simp only [passesToValue, passesToRest]
    omega
  | binary operator left right leftHypothesis rightHypothesis =>
    simp only [passesToValue, passesToRest]
    split <;> omega
  | call name arguments => exact Nat.le_refl _

variable [Arithmetic ν]

/-- Whether nothing is left to be folded or dropped at the root of a tree. A constant may be
infinite here, and then its negation stays. -/
def HasRebuiltRoot : Expr ν → Prop
  | const _ => True
  | neg operand => operand.isConstant = true → Unfoldable (neg operand)
  | tree => HasReducedRoot tree

/-- A tree as a pass leaves it behind. -/
abbrev Rebuilt (tree : Expr ν) : Prop :=
  tree.Throughout HasRebuiltRoot

theorem keptByPasses_hasRebuiltRoot : KeptByPasses (HasRebuiltRoot : Expr ν → Prop) where
  finite _ := trivial
  whole _ := trivial
  free _ := trivial
  negation noConstant isConstant := Bool.noConfusion (noConstant.symm.trans isConstant)
  unfoldable _ unfoldable _ := unfoldable
  operation reduced := reduced
  application reduced := reduced

/-- Every pass leaves a rebuilt tree behind. -/
theorem rebuilt_of_pass {tree after : Expr ν} (passed : pass tree = .ok after) : Rebuilt after :=
  throughout_of_pass keptByPasses_hasRebuiltRoot (fun _ _ => trivial) passed

/-- What a pass makes of a rebuilt tree: it is one pass nearer to rest and to its value. At rest it
is the tree itself, and a finite constant that was not to be waited for is the tree itself too. -/
structure Advances (tree after : Expr ν) : Prop where
  rest_le : after.passesToRest ≤ tree.passesToRest - 1
  value_le : after.passesToValue ≤ tree.passesToValue - 1
  eq_self : tree.passesToRest = 0 → after = tree
  eq_of_finite : tree.passesToValue = 0 → ∀ value, after = const value →
    Arithmetic.isFinite value = true → after = tree

/-- What a pass makes of an operation once its operands are rebuilt. -/
abbrev operated (operator : BinaryOperator) (left right : Expr ν) :
    Except EvaluationFault (Expr ν) :=
  if left.isConstant && right.isConstant then folded (binary operator left right)
  else .ok (withoutNeutral operator left right)

section Nodes

variable {operator : BinaryOperator} {name : String}
  {operand left right newOperand newLeft newRight after : Expr ν}
  {arguments results : List (Expr ν)}

/-- What becomes of an operation on rebuilt operands. -/
theorem operated_cases (finished : operated operator left right = .ok after) :
    after = binary operator left right ∨ after.isConstant = true ∨ after = left ∨ after = right ∨
      operator = .sub ∧ left.isWhole 0 = true ∧ right.isConstant = false ∧ after = neg right := by
  cases both : (left.isConstant && right.isConstant) with
  | true =>
    rw [operated, both, if_pos rfl] at finished
    rcases folded_eq_ok finished with ⟨value, rfl, _⟩ | ⟨rfl, _⟩
    · exact .inr (.inl rfl)
    · exact .inl rfl
  | false =>
    rw [operated, both, if_neg Bool.false_ne_true] at finished
    cases finished
    unfold withoutNeutral
    cases operator with
    | sub =>
      dsimp only
      split
      · simp
      · split
        · next zero =>
          have leftConstant := isConstant_of_isWhole zero
          rw [leftConstant, Bool.true_and] at both
          simp [zero, both]
        · simp
    | _ =>
      dsimp only
      repeat' split
      all_goals simp [isConstant, constant?]

/-- An operation that nothing can be folded or dropped at stays as it is. -/
theorem eq_binary_of_reduced (reduced : HasReducedRoot (binary operator left right))
    (finished : operated operator left right = .ok after) :
    after = binary operator left right := by
  cases both : (left.isConstant && right.isConstant) with
  | true =>
    rw [HasReducedRoot, if_pos both] at reduced
    rw [operated, both, if_pos rfl] at finished
    exact eq_of_folded reduced finished
  | false =>
    rw [HasReducedRoot, both, if_neg Bool.false_ne_true] at reduced
    rw [operated, both, if_neg Bool.false_ne_true] at finished
    cases finished
    exact withoutNeutral_eq_binary reduced

/-- What a pass makes of a rebuilt negation. -/
theorem Advances.negation [Arithmetic.KeepsFinite ν] [Arithmetic.ReflectsFinite ν]
    (rebuilt : Rebuilt (neg operand)) (advances : Advances operand newOperand)
    (newRebuilt : Rebuilt newOperand)
    (finished : (if newOperand.isConstant then folded (neg newOperand)
      else .ok (negated newOperand)) = .ok after) : Advances (neg operand) after := by
  have stuck : operand.isConstant = true → Unfoldable (neg operand) := rebuilt.self
  have restBound := advances.rest_le
  have valueBound := advances.value_le
  have operandValue := operand.passesToValue_le
  cases isConstant : newOperand.isConstant with
  | true =>
    obtain ⟨inner, rfl⟩ := isConstant_iff.1 isConstant
    rw [isConstant, if_pos rfl] at finished
    have kept (same : const inner = operand) : after = neg operand := by
      subst same
      exact eq_of_folded (stuck rfl) finished
    have folds := folded_eq_ok finished
    refine ⟨?_, ?_, fun atRest => ?_, fun known value same finite => ?_⟩
    · rcases folds with ⟨value, rfl, _⟩ | ⟨rfl, _⟩ <;> exact Nat.zero_le _
    · rcases folds with ⟨value, rfl, _⟩ | ⟨rfl, _⟩ <;> exact Nat.zero_le _
    · simp only [passesToRest] at atRest
      exact kept (advances.eq_self (by omega))
    · subst same
      have innerFinite : Arithmetic.isFinite inner = true := by
        have evaluated : (neg (const inner)).evaluate Bindings.empty = .ok (-inner) := rfl
        rw [folded, evaluated] at finished
        cases negatedFinite : Arithmetic.isFinite (-inner) with
        | true => exact Arithmetic.ReflectsFinite.isFinite_of_neg negatedFinite
        | false => simp [negatedFinite, bind, Except.bind, pure, Except.pure] at finished
      exact kept (advances.eq_of_finite known inner rfl innerFinite)
  | false =>
    rw [isConstant, if_neg Bool.false_ne_true] at finished
    cases finished
    cases newOperand with
    | neg inner =>
      refine ⟨?_, valueBound, fun atRest => ?_, fun known value same finite => ?_⟩
      · change inner.passesToRest ≤ (neg operand).passesToRest - 1
        simp only [passesToRest] at restBound ⊢
        omega
      · simp only [passesToRest] at atRest
        obtain rfl := advances.eq_self (by omega)
        simp [isNegation] at atRest
      · -- The negation of a finite constant is folded where it stands.
        obtain rfl : inner = const value := same
        have unfoldable : Unfoldable (neg (const value)) := newRebuilt.self rfl
        have folds := Arithmetic.KeepsFinite.isFinite_neg finite
        rw [unfoldable (-value) rfl] at folds
        cases folds
    | const value => cases isConstant
    | _ =>
      refine ⟨?_, valueBound, fun atRest => ?_, fun _ value same => ?_⟩
      · simp only [negated, passesToRest, isNegation, Bool.false_eq_true, if_false] at restBound ⊢
        omega
      · simp only [passesToRest] at atRest
        rw [← advances.eq_self (by omega)]
        rfl
      · cases same

/-- What a pass makes of rebuilt arguments. -/
theorem advances_of_passAll
    (each : ∀ argument ∈ arguments, ∀ result, pass argument = .ok result →
      Advances argument result)
    (passed : passAll arguments = .ok results) :
    mostPassesToRest results ≤ mostPassesToRest arguments - 1 ∧
      (mostPassesToRest arguments = 0 → results = arguments) := by
  have bounds := mostPassesToRest_le_iff.1 (Nat.le_refl (mostPassesToRest arguments))
  constructor
  · refine mostPassesToRest_le_iff.2 fun result present => ?_
    obtain ⟨argument, inside, argumentPassed⟩ := exists_of_mem_passAll passed present
    have advanced := (each argument inside result argumentPassed).rest_le
    have := bounds argument inside
    omega
  · intro atRest
    refine eq_of_passAll (fun argument inside result argumentPassed => ?_) passed
    have := bounds argument inside
    exact (each argument inside result argumentPassed).eq_self (by omega)

/-- What a pass makes of a call on rebuilt arguments. -/
theorem Advances.application (rebuilt : Rebuilt (call name arguments))
    (bound : mostPassesToRest results ≤ mostPassesToRest arguments - 1)
    (same : mostPassesToRest arguments = 0 → results = arguments)
    (finished : (if results.all isConstant then folded (call name results)
      else .ok (call name results)) = .ok after) : Advances (call name arguments) after := by
  have stuck : arguments.all isConstant = true → Unfoldable (call name arguments) := rebuilt.self
  have outcome : after = call name results ∨ ∃ value, after = const value := by
    split at finished
    · rcases folded_eq_ok finished with ⟨value, isConstant, _⟩ | ⟨stays, _⟩
      · exact .inr ⟨value, isConstant⟩
      · exact .inl stays
    · exact .inl (Except.ok.inj finished).symm
  have kept (atRest : mostPassesToRest arguments = 0) : after = call name arguments := by
    obtain rfl := same atRest
    split at finished
    · next all => exact eq_of_folded (stuck all) finished
    · exact (Except.ok.inj finished).symm
  refine ⟨?_, ?_, kept, fun known _ _ _ => kept known⟩
  · rcases outcome with rfl | ⟨value, rfl⟩
    · exact bound
    · exact Nat.zero_le _
  · rcases outcome with rfl | ⟨value, rfl⟩
    · exact bound
    · exact Nat.zero_le _

variable [Arithmetic.KeepsZero ν]

/-- Zero is a finite constant. -/
theorem exists_finite_of_isWhole (zero : operand.isWhole 0 = true) :
    ∃ value, operand = const value ∧ Arithmetic.isFinite value = true := by
  obtain ⟨value, rfl⟩ := isConstant_iff.1 (isConstant_of_isWhole zero)
  exact ⟨value, rfl, Arithmetic.KeepsZero.isFinite_of_isZero zero⟩

/-- A difference without an idle operand has a zero on its left only where it waited for a value
there. -/
theorem passesToValue_pos (reduced : HasReducedRoot (binary .sub left right))
    (leftAdvances : Advances left newLeft) (rightAdvances : Advances right newRight)
    (zero : newLeft.isWhole 0 = true) (noConstant : newRight.isConstant = false) :
    0 < left.passesToValue := by
  by_contra known
  obtain ⟨value, leftConstant, finite⟩ := exists_finite_of_isWhole zero
  obtain rfl : newLeft = left := leftAdvances.eq_of_finite (by omega) value leftConstant finite
  have rightNone : right.isConstant = false := by
    cases isConstant : right.isConstant with
    | false => rfl
    | true =>
      obtain ⟨constant, rfl⟩ := isConstant_iff.1 isConstant
      rw [rightAdvances.eq_self rfl] at noConstant
      cases noConstant
  rw [HasReducedRoot, rightNone, Bool.and_false, if_neg Bool.false_ne_true, hasIdleOperand,
    zero] at reduced
  cases reduced

variable [Arithmetic.ReflectsFinite ν]

/-- A sum or a difference comes to be a finite constant only where its left operand is one. -/
theorem exists_left_of_sum {value : ν} (isSum : operator = .add ∨ operator = .sub)
    (finished : operated operator left right = .ok (const value))
    (finite : Arithmetic.isFinite value = true) :
    ∃ first, left = const first ∧ Arithmetic.isFinite first = true := by
  cases both : (left.isConstant && right.isConstant) with
  | true =>
    obtain ⟨leftConstant, rightConstant⟩ := Bool.and_eq_true_iff.1 both
    obtain ⟨first, rfl⟩ := isConstant_iff.1 leftConstant
    obtain ⟨second, rfl⟩ := isConstant_iff.1 rightConstant
    rw [operated, both, if_pos rfl] at finished
    obtain ⟨result, known, returned⟩ := exists_of_bind_eq_ok finished
    have same : value = result := by
      split at returned
      · exact (const.inj (Except.ok.inj returned)).symm
      · cases returned
    subst same
    refine ⟨first, rfl, ?_⟩
    rcases isSum with rfl | rfl
    · obtain rfl : first + second = value := Except.ok.inj known
      exact Arithmetic.ReflectsFinite.isFinite_of_add finite
    · obtain rfl : first - second = value := Except.ok.inj known
      exact Arithmetic.ReflectsFinite.isFinite_of_sub finite
  | false =>
    rw [operated, both, if_neg Bool.false_ne_true] at finished
    have result := Except.ok.inj finished
    unfold withoutNeutral at result
    -- A zero on the right is dropped; one on the left is the constant that is asked for.
    rcases isSum with rfl | rfl
    all_goals
      dsimp only at result
      split at result
      · exact ⟨value, result, finite⟩
      · split at result
        · next zero => exact exists_finite_of_isWhole zero
        · cases result

/-- What a pass makes of a rebuilt operation. -/
theorem Advances.operation (rebuilt : Rebuilt (binary operator left right))
    (leftAdvances : Advances left newLeft) (rightAdvances : Advances right newRight)
    (finished : operated operator newLeft newRight = .ok after) :
    Advances (binary operator left right) after := by
  have reduced : HasReducedRoot (binary operator left right) := rebuilt.self
  have kept (leftSame : newLeft = left) (rightSame : newRight = right) :
      after = binary operator left right := by
    subst leftSame rightSame
    exact eq_binary_of_reduced reduced finished
  have leftBound := leftAdvances.rest_le
  have leftValue := leftAdvances.value_le
  have rightBound := rightAdvances.rest_le
  have newLeftValue := newLeft.passesToValue_le
  have newRightValue := newRight.passesToValue_le
  have leftFirst := left.passesToValue_le
  refine ⟨?_, ?_, fun atRest => ?_, fun known value same finite => ?_⟩
  · rcases operated_cases finished with rfl | isConstant | rfl | rfl | ⟨rfl, zero, noConstant, rfl⟩
    · simp only [passesToRest]
      by_cases isSub : operator = .sub
      · simp only [isSub, true_and]
        split <;> split <;> omega
      · simp only [isSub, false_and, if_false]
        omega
    · obtain ⟨value, rfl⟩ := isConstant_iff.1 isConstant
      exact Nat.zero_le _
    · simp only [passesToRest]
      omega
    · simp only [passesToRest]
      omega
    · have waiting := passesToValue_pos reduced leftAdvances rightAdvances zero noConstant
      simp only [passesToRest, true_and, if_pos waiting]
      split <;> omega
  · rcases operated_cases finished with rfl | isConstant | rfl | rfl | ⟨rfl, zero, noConstant, rfl⟩
    · simp only [passesToValue]
      by_cases isSum : operator = .add ∨ operator = .sub
      · simp only [isSum, if_true]
        omega
      · simp only [isSum, if_false]
        omega
    · obtain ⟨value, rfl⟩ := isConstant_iff.1 isConstant
      exact Nat.zero_le _
    · simp only [passesToValue]
      split <;> omega
    · simp only [passesToValue]
      split <;> omega
    · simp only [passesToValue]
      split <;> omega
  · simp only [passesToRest] at atRest
    exact kept (leftAdvances.eq_self (by omega)) (rightAdvances.eq_self (by omega))
  · simp only [passesToValue] at known
    have rightSame := rightAdvances.eq_self (by omega)
    refine kept ?_ rightSame
    split at known
    · next isSum =>
      subst same
      obtain ⟨first, leftConstant, leftFinite⟩ := exists_left_of_sum isSum finished finite
      exact leftAdvances.eq_of_finite (by omega) first leftConstant leftFinite
    · exact leftAdvances.eq_self (by omega)

end Nodes

variable [Arithmetic.KeepsFinite ν] [Arithmetic.KeepsZero ν] [Arithmetic.ReflectsFinite ν]
  {tree after : Expr ν}

/-- Each pass over a rebuilt tree brings it one pass nearer to rest. -/
theorem advances_of_pass (rebuilt : Rebuilt tree) (passed : pass tree = .ok after) :
    Advances tree after := by
  induction tree generalizing after with
  | const value =>
    cases passed
    exact ⟨Nat.le_refl 0, Nat.le_refl 0, fun _ => rfl, fun _ _ _ _ => rfl⟩
  | var name =>
    cases passed
    exact ⟨Nat.le_refl 0, Nat.le_refl 0, fun _ => rfl, nofun⟩
  | neg operand inductionHypothesis =>
    obtain ⟨newOperand, operandPassed, finished⟩ := exists_of_bind_eq_ok passed
    exact .negation rebuilt (inductionHypothesis (throughout_neg.1 rebuilt).2 operandPassed)
      (rebuilt_of_pass operandPassed) finished
  | binary operator left right leftHypothesis rightHypothesis =>
    obtain ⟨newLeft, newRight, leftPassed, rightPassed, finished⟩ := exists_operands_of_pass passed
    obtain ⟨_, leftRebuilt, rightRebuilt⟩ := throughout_binary.1 rebuilt
    exact .operation rebuilt (leftHypothesis leftRebuilt leftPassed)
      (rightHypothesis rightRebuilt rightPassed) finished
  | call name arguments inductionHypothesis =>
    obtain ⟨results, argumentsPassed, finished⟩ := exists_of_bind_eq_ok passed
    have each := (throughout_call.1 rebuilt).2
    obtain ⟨bound, same⟩ := advances_of_passAll (fun argument inside _ argumentPassed =>
      inductionHypothesis argument inside (each argument inside) argumentPassed) argumentsPassed
    exact .application rebuilt bound same finished

/-- A rebuilt tree is at rest after as many passes as are counted for it. -/
theorem exists_rest (accepted : tree.CallsAccepted) (rebuilt : Rebuilt tree) {number : Nat}
    (enough : tree.passesToRest ≤ number) :
    ∃ result, passes number tree = .ok result ∧ pass result = .ok result := by
  induction number generalizing tree with
  | zero =>
    obtain ⟨next, passed⟩ := exists_pass accepted
    obtain rfl := (advances_of_pass rebuilt passed).eq_self (Nat.le_zero.1 enough)
    exact ⟨next, rfl, passed⟩
  | succ number inductionHypothesis =>
    obtain ⟨next, passed⟩ := exists_pass accepted
    have nearer := (advances_of_pass rebuilt passed).rest_le
    obtain ⟨result, reached, fixed⟩ := inductionHypothesis
      (callsAccepted_of_pass passed accepted) (rebuilt_of_pass passed) (by omega)
    exact ⟨result, (passes_succ passed).trans reached, fixed⟩

end Expr

end Tangent
