import Tangent.Expr.Evaluation
import Tangent.Proofs.Expr.Subtrees
import Tangent.Proofs.Result

/-!
# Values of trees

When a tree has a value, and what its value depends on, under any interpretation of its constants
and operations.
-/

namespace Tangent.Expr

variable {ν α : Type} {meaning : Interpretation ν α} {bindings : Bindings α}

/-- A lone constant has no variables. -/
theorem names_eq_nil_of_isConstant {tree : Expr ν} (isConstant : tree.isConstant = true) :
    tree.names = [] := by
  obtain ⟨value, rfl⟩ := isConstant_iff.1 isConstant
  rfl

/-- Lone constants have no variables. -/
theorem namesOfAll_eq_nil_of_isConstant {trees : List (Expr ν)}
    (all : trees.all isConstant = true) : namesOfAll trees = [] := by
  rw [namesOfAll_eq_flatMap, List.flatMap_eq_nil_iff]
  exact fun tree present => names_eq_nil_of_isConstant (List.all_eq_true.1 all tree present)

/-- Bindings that give some trees the same values give them the same values together. -/
theorem evaluateAllIn_congr {others : Bindings α} {trees : List (Expr ν)}
    (agree : ∀ tree ∈ trees, tree.evaluateIn meaning bindings = tree.evaluateIn meaning others) :
    evaluateAllIn meaning bindings trees = evaluateAllIn meaning others trees := by
  induction trees with
  | nil => rfl
  | cons tree rest inductionHypothesis =>
    obtain ⟨first, inRest⟩ := List.forall_mem_cons.1 agree
    rw [evaluateAllIn, evaluateAllIn, first, inductionHypothesis inRest]

/-- Bindings that agree on the variables of a tree give it the same value, or the same fault. -/
theorem evaluateIn_congr {others : Bindings α} {tree : Expr ν}
    (agree : ∀ name ∈ tree.names, bindings name = others name) :
    tree.evaluateIn meaning bindings = tree.evaluateIn meaning others := by
  induction tree with
  | const value => rfl
  | var name => rw [evaluateIn, evaluateIn, agree name List.mem_cons_self]
  | neg operand inductionHypothesis => rw [evaluateIn, evaluateIn, inductionHypothesis agree]
  | binary operator left right leftHypothesis rightHypothesis =>
    obtain ⟨inLeft, inRight⟩ := List.forall_mem_append.1 agree
    rw [evaluateIn, evaluateIn, leftHypothesis inLeft, rightHypothesis inRight]
  | call name arguments inductionHypothesis =>
    have inArguments : ∀ argument ∈ arguments,
        argument.evaluateIn meaning bindings = argument.evaluateIn meaning others := by
      intro argument present
      refine inductionHypothesis argument present fun name inside => agree name ?_
      rw [names, namesOfAll_eq_flatMap]
      exact List.mem_flatMap.2 ⟨argument, present, inside⟩
    rw [evaluateIn, evaluateIn, evaluateAllIn_congr inArguments]

section Shapes

variable {operand left right argument base : Expr ν} {operator : BinaryOperator} {name : String}
  {function : Elementary} {value leftValue rightValue : α}

theorem evaluateIn_neg (known : operand.evaluateIn meaning bindings = .ok value) :
    (neg operand).evaluateIn meaning bindings = .ok (meaning.negate value) := by
  rw [evaluateIn, known]
  rfl

theorem evaluateIn_binary (leftKnown : left.evaluateIn meaning bindings = .ok leftValue)
    (rightKnown : right.evaluateIn meaning bindings = .ok rightValue) :
    (binary operator left right).evaluateIn meaning bindings =
      meaning.combine operator leftValue rightValue := by
  rw [evaluateIn, leftKnown, rightKnown]
  rfl

theorem evaluateIn_call_one (registered : Elementary.ofName? name = some function)
    (known : argument.evaluateIn meaning bindings = .ok value) :
    (call name [argument]).evaluateIn meaning bindings = .ok (meaning.apply function value) := by
  rw [evaluateIn, registered]
  simp only [evaluateAllIn, known]
  cases function <;> rfl

theorem evaluateIn_call_two (registered : Elementary.ofName? name = some .log)
    (argumentKnown : argument.evaluateIn meaning bindings = .ok leftValue)
    (baseKnown : base.evaluateIn meaning bindings = .ok rightValue) :
    (call name [argument, base]).evaluateIn meaning bindings =
      meaning.combine .div (meaning.apply .log leftValue) (meaning.apply .log rightValue) := by
  rw [evaluateIn, registered]
  simp only [evaluateAllIn, argumentKnown, baseKnown]
  rfl

end Shapes

/-- Where operations never fail and its variables have values, a tree of accepted calls has a
value. -/
theorem exists_evaluateIn
    (total : ∀ operator left right, ∃ value, meaning.combine operator left right = .ok value)
    {tree : Expr ν} (bound : ∀ name ∈ tree.names, ∃ value, bindings name = some value)
    (accepted : tree.CallsAccepted) : ∃ value, tree.evaluateIn meaning bindings = .ok value := by
  induction tree with
  | const value => exact ⟨_, rfl⟩
  | var name =>
    obtain ⟨value, known⟩ := bound name List.mem_cons_self
    exact ⟨value, by rw [evaluateIn, known]⟩
  | neg operand inductionHypothesis =>
    obtain ⟨value, known⟩ := inductionHypothesis bound (throughout_neg.1 accepted).2
    exact ⟨_, evaluateIn_neg known⟩
  | binary operator left right leftHypothesis rightHypothesis =>
    obtain ⟨inLeft, inRight⟩ := List.forall_mem_append.1 bound
    obtain ⟨_, leftAccepted, rightAccepted⟩ := throughout_binary.1 accepted
    obtain ⟨leftValue, leftKnown⟩ := leftHypothesis inLeft leftAccepted
    obtain ⟨rightValue, rightKnown⟩ := rightHypothesis inRight rightAccepted
    rw [evaluateIn_binary leftKnown rightKnown]
    exact total operator leftValue rightValue
  | call name arguments inductionHypothesis =>
    obtain ⟨root, argumentsAccepted⟩ := throughout_call.1 accepted
    have each (argument : Expr ν) (present : argument ∈ arguments) :
        ∃ value, argument.evaluateIn meaning bindings = .ok value := by
      refine inductionHypothesis argument present (fun name inside => bound name ?_)
        (argumentsAccepted argument present)
      rw [names, namesOfAll_eq_flatMap]
      exact List.mem_flatMap.2 ⟨argument, present, inside⟩
    rcases hasAcceptedRoot_call_iff.1 root with
      ⟨function, argument, registered, rfl⟩ | ⟨argument, base, registered, rfl⟩
    · obtain ⟨value, known⟩ := each argument (by simp)
      exact ⟨_, evaluateIn_call_one registered known⟩
    · obtain ⟨argumentValue, argumentKnown⟩ := each argument (by simp)
      obtain ⟨baseValue, baseKnown⟩ := each base (by simp)
      rw [evaluateIn_call_two registered argumentKnown baseKnown]
      exact total .div _ _

/-- Operations on numbers never fail, so a tree of accepted calls has a value where its variables
have one. -/
theorem exists_evaluate [Arithmetic ν] {bindings : Bindings ν} {tree : Expr ν}
    (bound : ∀ name ∈ tree.names, ∃ value, bindings name = some value)
    (accepted : tree.CallsAccepted) : ∃ value, tree.evaluate bindings = .ok value :=
  exists_evaluateIn (fun _ _ _ => ⟨_, rfl⟩) bound accepted

section Numbers

variable [Arithmetic ν] {bindings : Bindings ν} {operand left right : Expr ν}
  {operator : BinaryOperator} {value : ν}

/-- A negation has a value only through its operand. -/
theorem exists_of_evaluate_neg (known : (neg operand).evaluate bindings = .ok value) :
    ∃ inner, operand.evaluate bindings = .ok inner ∧ -inner = value := by
  obtain ⟨inner, innerKnown, same⟩ := exists_of_bind_eq_ok known
  exact ⟨inner, innerKnown, Except.ok.inj same⟩

/-- An operation has a value only through its operands. -/
theorem exists_of_evaluate_binary
    (known : (binary operator left right).evaluate bindings = .ok value) :
    ∃ leftValue rightValue, left.evaluate bindings = .ok leftValue ∧
      right.evaluate bindings = .ok rightValue ∧
      Arithmetic.combine operator leftValue rightValue = value := by
  obtain ⟨leftValue, leftKnown, continued⟩ := exists_of_bind_eq_ok known
  obtain ⟨rightValue, rightKnown, same⟩ := exists_of_bind_eq_ok continued
  exact ⟨leftValue, rightValue, leftKnown, rightKnown, Except.ok.inj same⟩

end Numbers

end Tangent.Expr
