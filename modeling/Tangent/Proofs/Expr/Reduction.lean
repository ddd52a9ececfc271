import Tangent.Expr.Simplification
import Tangent.Proofs.Result

/-!
# Reductions

What a pass does at a node, said once: after its operands are rebuilt, the node is left alone, or
gives way to a finite value, to one of the trees below it, to a negated operand, or to zero or one.
Every such reduction makes the tree smaller. So a pass that keeps the number of nodes keeps the
tree, and the simplifier, which stops where a pass changes nothing that `==` can see, stops at trees
that no pass changes at all: its result is that of making the passes one by one.
-/

namespace Tangent.Expr

variable {ν : Type}

mutual

/-- Like trees have the same number of nodes. -/
theorem count_eq_of_alike {agree : ν → ν → Bool} :
    (left right : Expr ν) → alike agree left right = true → left.count = right.count
  | const _, const _, _ => rfl
  | var _, var _, _ => rfl
  | neg left, neg right, same => by
    rw [count, count, count_eq_of_alike left right same]
  | binary _ left right, binary _ left' right', same => by
    simp only [alike, Bool.and_eq_true] at same
    rw [count, count, count_eq_of_alike left left' same.1.2, count_eq_of_alike right right' same.2]
  | call _ arguments, call _ arguments', same => by
    simp only [alike, Bool.and_eq_true] at same
    rw [count, count, countAll_eq_of_allAlike arguments arguments' same.2]

/-- Like lists of trees have the same number of nodes. -/
theorem countAll_eq_of_allAlike {agree : ν → ν → Bool} :
    (lefts rights : List (Expr ν)) → allAlike agree lefts rights = true →
      countAll lefts = countAll rights
  | [], [], _ => rfl
  | left :: lefts, right :: rights, same => by
    simp only [allAlike, Bool.and_eq_true] at same
    rw [countAll, countAll, count_eq_of_alike left right same.1,
      countAll_eq_of_allAlike lefts rights same.2]

end

variable [Arithmetic ν]

/-- What a pass makes of a node whose operands have been rebuilt. -/
inductive ReducesTo : Expr ν → Expr ν → Prop where
  | refl (tree : Expr ν) : ReducesTo tree tree
  | value {tree : Expr ν} {value : ν} (inner : tree.children ≠ [])
      (finite : Arithmetic.isFinite value = true) : ReducesTo tree (const value)
  | negatedTwice (operand : Expr ν) : ReducesTo (neg (neg operand)) operand
  | left (operator : BinaryOperator) (left right : Expr ν) :
      ReducesTo (binary operator left right) left
  | right (operator : BinaryOperator) (left right : Expr ν) :
      ReducesTo (binary operator left right) right
  | negatedRight (left right : Expr ν) : ReducesTo (binary .sub left right) (neg right)
  | whole (operator : BinaryOperator) (left right : Expr ν) {number : Nat} (small : number ≤ 1) :
      ReducesTo (binary operator left right) (const (Arithmetic.ofNat number))

section Node

variable {operand left right after : Expr ν} {operator : BinaryOperator} {name : String}
  {arguments : List (Expr ν)}

/-- A node is folded to a finite value or left alone. A call without arguments has no value. -/
theorem folded_reduces {result : Expr ν} (succeeded : folded after = .ok result)
    (inner : after.children ≠ []) : ReducesTo after result := by
  obtain ⟨value, _, returned⟩ := exists_of_bind_eq_ok succeeded
  split at returned
  · next finite =>
    cases returned
    exact .value inner finite
  · cases returned
    exact .refl after

theorem negated_reduces (operand : Expr ν) : ReducesTo (neg operand) (negated operand) := by
  cases operand with
  | neg inner => exact .negatedTwice inner
  | _ => exact .refl _

theorem withoutNeutral_reduces (operator : BinaryOperator) (left right : Expr ν) :
    ReducesTo (binary operator left right) (withoutNeutral operator left right) := by
  unfold withoutNeutral
  cases operator with
  | add =>
    dsimp only
    split
    · exact .left .add left right
    · split
      · exact .right .add left right
      · exact .refl _
  | sub =>
    dsimp only
    split
    · exact .left .sub left right
    · split
      · exact .negatedRight left right
      · exact .refl _
  | mul =>
    dsimp only
    split
    · exact .whole .mul left right (Nat.zero_le 1)
    · split
      · exact .left .mul left right
      · split
        · exact .right .mul left right
        · exact .refl _
  | div =>
    dsimp only
    split
    · exact .left .div left right
    · exact .refl _
  | pow =>
    dsimp only
    split
    · exact .whole .pow left right (Nat.le_refl 1)
    · split
      · exact .left .pow left right
      · exact .refl _

/-- A negation is rebuilt from its rebuilt operand. -/
theorem exists_of_pass_neg (passed : pass (neg operand) = .ok after) :
    ∃ rebuilt, pass operand = .ok rebuilt ∧ ReducesTo (neg rebuilt) after := by
  obtain ⟨rebuilt, operandPassed, finished⟩ := exists_of_bind_eq_ok passed
  refine ⟨rebuilt, operandPassed, ?_⟩
  split at finished
  · exact folded_reduces finished (List.cons_ne_nil rebuilt [])
  · cases finished
    exact negated_reduces rebuilt

/-- An operation is folded if its rebuilt operands are constants, and loses its neutral operands if
not. -/
theorem exists_operands_of_pass (passed : pass (binary operator left right) = .ok after) :
    ∃ newLeft newRight, pass left = .ok newLeft ∧ pass right = .ok newRight ∧
      (if newLeft.isConstant && newRight.isConstant then folded (binary operator newLeft newRight)
        else .ok (withoutNeutral operator newLeft newRight)) = .ok after := by
  obtain ⟨newLeft, leftPassed, continued⟩ := exists_of_bind_eq_ok passed
  obtain ⟨newRight, rightPassed, finished⟩ := exists_of_bind_eq_ok continued
  exact ⟨newLeft, newRight, leftPassed, rightPassed, finished⟩

/-- An operation is rebuilt from its rebuilt operands. -/
theorem exists_of_pass_binary (passed : pass (binary operator left right) = .ok after) :
    ∃ newLeft newRight, pass left = .ok newLeft ∧ pass right = .ok newRight ∧
      ReducesTo (binary operator newLeft newRight) after := by
  obtain ⟨newLeft, newRight, leftPassed, rightPassed, finished⟩ := exists_operands_of_pass passed
  refine ⟨newLeft, newRight, leftPassed, rightPassed, ?_⟩
  split at finished
  · exact folded_reduces finished (List.cons_ne_nil newLeft [newRight])
  · cases finished
    exact withoutNeutral_reduces operator newLeft newRight

/-- A call is rebuilt from its rebuilt arguments. -/
theorem exists_of_pass_call (passed : pass (call name arguments) = .ok after) :
    ∃ rebuilt, passAll arguments = .ok rebuilt ∧ ReducesTo (call name rebuilt) after := by
  obtain ⟨rebuilt, argumentsPassed, finished⟩ := exists_of_bind_eq_ok passed
  refine ⟨rebuilt, argumentsPassed, ?_⟩
  split at finished
  · refine folded_reduces finished ?_
    rintro (rfl : rebuilt = [])
    obtain ⟨value, known, _⟩ := exists_of_bind_eq_ok finished
    rw [evaluate, evaluateIn] at known
    split at known
    · cases known
    · next function _ => cases function <;> cases known
  · cases finished
    exact .refl _

end Node

/-- A pass over some trees gives as many. -/
theorem length_passAll {trees after : List (Expr ν)} (passed : passAll trees = .ok after) :
    after.length = trees.length := by
  induction trees generalizing after with
  | nil => cases passed; rfl
  | cons tree rest inductionHypothesis =>
    obtain ⟨first, _, continued⟩ := exists_of_bind_eq_ok passed
    obtain ⟨others, othersPassed, returned⟩ := exists_of_bind_eq_ok continued
    cases returned
    rw [List.length_cons, List.length_cons, inductionHypothesis othersPassed]

/-- What a pass over some trees gives is given by a pass over one of them. -/
theorem exists_of_mem_passAll {trees after : List (Expr ν)} (passed : passAll trees = .ok after)
    {result : Expr ν} (present : result ∈ after) : ∃ tree ∈ trees, pass tree = .ok result := by
  induction trees generalizing after with
  | nil => cases passed; cases present
  | cons tree rest inductionHypothesis =>
    obtain ⟨first, firstPassed, continued⟩ := exists_of_bind_eq_ok passed
    obtain ⟨others, othersPassed, returned⟩ := exists_of_bind_eq_ok continued
    cases returned
    rcases List.mem_cons.1 present with rfl | inOthers
    · exact ⟨tree, List.mem_cons_self, firstPassed⟩
    · obtain ⟨origin, inRest, originPassed⟩ := inductionHypothesis othersPassed inOthers
      exact ⟨origin, List.mem_cons_of_mem tree inRest, originPassed⟩

/-- A reduction that changes a tree makes it smaller. -/
theorem ReducesTo.eq_or_count_lt {tree after : Expr ν} (reduces : ReducesTo tree after) :
    after = tree ∨ after.count < tree.count := by
  cases reduces with
  | refl => exact .inl rfl
  | value inner finite =>
    right
    cases tree with
    | const value => exact absurd rfl inner
    | var name => exact absurd rfl inner
    | neg operand =>
      have := operand.count_pos
      simp only [count]
      omega
    | binary operator left right =>
      have := left.count_pos
      simp only [count]
      omega
    | call name arguments =>
      cases arguments with
      | nil => exact absurd rfl inner
      | cons argument rest =>
        have := argument.count_pos
        simp only [count, countAll]
        omega
  | negatedTwice => exact .inr (by simp only [count]; omega)
  | left => exact .inr (by simp only [count]; omega)
  | right => exact .inr (by simp only [count]; omega)
  | negatedRight left right =>
    have := left.count_pos
    exact .inr (by simp only [count]; omega)
  | whole operator left right =>
    have := left.count_pos
    exact .inr (by simp only [count]; omega)

mutual

/-- A pass that changes a tree makes it smaller. -/
theorem pass_eq_or_count_lt :
    (tree : Expr ν) → {after : Expr ν} → pass tree = .ok after →
      after = tree ∨ after.count < tree.count
  | const _, _, passed => .inl (Except.ok.inj passed).symm
  | var _, _, passed => .inl (Except.ok.inj passed).symm
  | neg operand, after, passed => by
    obtain ⟨rebuilt, operandPassed, reduces⟩ := exists_of_pass_neg passed
    have step := reduces.eq_or_count_lt
    rcases pass_eq_or_count_lt operand operandPassed with rfl | smaller
    · exact step
    · right
      rcases step with rfl | lesser <;> simp only [count] at * <;> omega
  | binary operator left right, after, passed => by
    obtain ⟨newLeft, newRight, leftPassed, rightPassed, reduces⟩ := exists_of_pass_binary passed
    have step := reduces.eq_or_count_lt
    rcases pass_eq_or_count_lt left leftPassed with rfl | leftSmaller <;>
      rcases pass_eq_or_count_lt right rightPassed with rfl | rightSmaller
    · exact step
    all_goals
      right
      rcases step with rfl | lesser <;> simp only [count] at * <;> omega
  | call name arguments, after, passed => by
    obtain ⟨rebuilt, argumentsPassed, reduces⟩ := exists_of_pass_call passed
    have step := reduces.eq_or_count_lt
    rcases passAll_eq_or_countAll_lt arguments argumentsPassed with rfl | smaller
    · exact step
    · right
      rcases step with rfl | lesser <;> simp only [count] at * <;> omega

/-- A pass that changes one of some trees makes them smaller together. -/
theorem passAll_eq_or_countAll_lt :
    (trees : List (Expr ν)) → {after : List (Expr ν)} → passAll trees = .ok after →
      after = trees ∨ countAll after < countAll trees
  | [], _, passed => .inl (Except.ok.inj passed).symm
  | tree :: rest, after, passed => by
    obtain ⟨first, firstPassed, continued⟩ := exists_of_bind_eq_ok passed
    obtain ⟨others, othersPassed, returned⟩ := exists_of_bind_eq_ok continued
    cases returned
    rcases pass_eq_or_count_lt tree firstPassed with rfl | firstSmaller <;>
      rcases passAll_eq_or_countAll_lt rest othersPassed with rfl | othersSmaller
    · exact .inl rfl
    all_goals
      right
      simp only [countAll]
      omega

end

/-- A pass that changes nothing that `==` can see changes nothing. -/
theorem eq_of_unchanged {tree after : Expr ν} (passed : pass tree = .ok after)
    (same : unchanged after tree = true) : after = tree := by
  rcases pass_eq_or_count_lt tree passed with rfl | smaller
  · rfl
  · exact absurd (count_eq_of_alike after tree same) (Nat.ne_of_lt smaller)

/-- The tree after a number of passes, one by one. -/
def passes : Nat → Expr ν → Except EvaluationFault (Expr ν)
  | 0, tree => .ok tree
  | number + 1, tree => do passes number (← pass tree)

/-- The first pass is followed by the others. -/
theorem passes_succ {number : Nat} {tree next : Expr ν} (passed : pass tree = .ok next) :
    passes (number + 1) tree = passes number next := by
  rw [passes, passed]
  rfl

/-- A tree that a pass leaves as it is stays so. -/
theorem passes_of_pass_eq {tree : Expr ν} (fixed : pass tree = .ok tree) (number : Nat) :
    passes number tree = .ok tree := by
  induction number with
  | zero => rfl
  | succ number inductionHypothesis => exact (passes_succ fixed).trans inductionHypothesis

/-- Passes are made one after the other. -/
theorem passes_add (first later : Nat) (tree : Expr ν) :
    passes (first + later) tree = passes first tree >>= passes later := by
  induction first generalizing tree with
  | zero => rw [Nat.zero_add]; rfl
  | succ first inductionHypothesis =>
    rw [Nat.succ_add, passes, passes]
    cases pass tree with
    | error fault => rfl
    | ok next => exact inductionHypothesis next

/-- What a pass leaves as it is stays so, however many more are made. -/
theorem passes_eq_of_le {made limit : Nat} {tree result : Expr ν}
    (reached : passes made tree = .ok result) (fixed : pass result = .ok result)
    (within : made ≤ limit) : passes limit tree = .ok result := by
  obtain ⟨later, rfl⟩ := Nat.exists_eq_add_of_le within
  rw [passes_add, reached]
  exact passes_of_pass_eq fixed later

/-- Stopping where a pass changes nothing does not change the result. -/
theorem tree_simplify (number : Nat) (tree : Expr ν) :
    Simplified.tree <$> simplify number tree = passes number tree := by
  induction number generalizing tree with
  | zero => rfl
  | succ number inductionHypothesis =>
    rw [simplify, passes]
    cases passed : pass tree with
    | error fault => rfl
    | ok next =>
      by_cases same : unchanged next tree = true
      · obtain rfl := eq_of_unchanged passed same
        have result := passes_of_pass_eq passed number
        simp [same, result, bind, Except.bind, pure, Except.pure, Functor.map, Except.map]
      · simpa [same, bind, Except.bind] using inductionHypothesis next

theorem passes_of_simplify {number : Nat} {tree : Expr ν} {simplified : Simplified ν}
    (succeeded : simplify number tree = .ok simplified) :
    passes number tree = .ok simplified.tree := by
  rw [← tree_simplify, succeeded]
  rfl

end Tangent.Expr
