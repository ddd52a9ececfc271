import Mathlib.Data.List.Forall2
import Tangent.Expr.Evaluation
import Tangent.Proofs.Result

/-!
# Agreement of interpretations

Two interpretations agree under a relation between their values if constants are related and
operations take related values to related values or to the same fault. Then whatever tree is
evaluated, related bindings give related values or the same fault: a tree can tell two
interpretations apart only by their operations.
-/

namespace Tangent

variable {ν α β : Type}

/-- The operations of two interpretations respect a relation between their values. -/
structure Interpretation.Respects (meaning : Interpretation ν α) (related : α → β → Prop)
    (other : Interpretation ν β) : Prop where
  constant (value : ν) : related (meaning.constant value) (other.constant value)
  negate {value : α} {value' : β} (holds : related value value') :
    related (meaning.negate value) (other.negate value')
  combine (operator : BinaryOperator) {left right : α} {left' right' : β}
    (leftHolds : related left left') (rightHolds : related right right') :
    Agree related (meaning.combine operator left right) (other.combine operator left' right')
  apply (function : Elementary) {value : α} {value' : β} (holds : related value value') :
    related (meaning.apply function value) (other.apply function value')

variable {related : α → β → Prop} {meaning : Interpretation ν α} {other : Interpretation ν β}

/-- No function takes more than two arguments. -/
theorem Interpretation.call_eq_error {function : Elementary} {values : List α}
    (many : 2 < values.length) :
    meaning.call function values = .error (.wrongArgumentCount function values.length) := by
  rcases values with _ | ⟨_, _ | ⟨_, _ | ⟨_, rest⟩⟩⟩
  · contradiction
  · contradiction
  · contradiction
  · cases function <;> rfl

/-- Calls on related arguments agree. -/
theorem Interpretation.Respects.call (respects : meaning.Respects related other)
    (function : Elementary) {values : List α} {values' : List β}
    (all : List.Forall₂ related values values') :
    Agree related (meaning.call function values) (other.call function values') := by
  have sameLength := all.length_eq
  rcases all with _ | ⟨argumentHolds, _ | ⟨baseHolds, _ | ⟨_, rest⟩⟩⟩
  · cases function <;> exact .error _
  · cases function <;> exact .ok (respects.apply _ argumentHolds)
  · cases function
    case log =>
      exact respects.combine .div (respects.apply .log argumentHolds)
        (respects.apply .log baseHolds)
    all_goals exact .error _
  · rw [call_eq_error (by simp), call_eq_error (by simp), sameLength]
    exact .error _

namespace Expr

variable {bindings : Bindings α} {others : Bindings β}

/-- Trees with values that agree one by one agree together. -/
theorem evaluateAllIn_agree {trees : List (Expr ν)}
    (each : ∀ tree ∈ trees,
      Agree related (tree.evaluateIn meaning bindings) (tree.evaluateIn other others)) :
    Agree (List.Forall₂ related) (evaluateAllIn meaning bindings trees)
      (evaluateAllIn other others trees) := by
  induction trees with
  | nil => exact .ok .nil
  | cons tree rest inductionHypothesis =>
    obtain ⟨first, inRest⟩ := List.forall_mem_cons.1 each
    refine first.bind fun value value' holds => ?_
    refine (inductionHypothesis inRest).bind fun values values' all => ?_
    exact .ok (.cons holds all)

/-- Under interpretations whose operations respect a relation, bindings that are related on the
variables of a tree give it related values, or the same fault. -/
theorem evaluateIn_agree (respects : meaning.Respects related other) {tree : Expr ν}
    (bound : ∀ name ∈ tree.names, Option.Rel related (bindings name) (others name)) :
    Agree related (tree.evaluateIn meaning bindings) (tree.evaluateIn other others) := by
  induction tree with
  | const value => exact .ok (respects.constant value)
  | var name =>
    have holds := bound name List.mem_cons_self
    rw [evaluateIn, evaluateIn]
    generalize bindings name = value, others name = value' at holds
    cases holds with
    | some holds => exact .ok holds
    | none => exact .error _
  | neg operand inductionHypothesis =>
    exact (inductionHypothesis bound).bind fun _ _ holds => .ok (respects.negate holds)
  | binary operator left right leftHypothesis rightHypothesis =>
    obtain ⟨inLeft, inRight⟩ := List.forall_mem_append.1 bound
    refine (leftHypothesis inLeft).bind fun _ _ leftHolds => ?_
    exact (rightHypothesis inRight).bind fun _ _ rightHolds =>
      respects.combine operator leftHolds rightHolds
  | call name arguments inductionHypothesis =>
    rw [evaluateIn, evaluateIn]
    cases Elementary.ofName? name with
    | none => exact .error _
    | some function =>
      refine (evaluateAllIn_agree fun argument present => ?_).bind fun _ _ all =>
        respects.call function all
      refine inductionHypothesis argument present fun other inside => bound other ?_
      rw [names, namesOfAll_eq_flatMap]
      exact List.mem_flatMap.2 ⟨argument, present, inside⟩

end Expr

end Tangent
