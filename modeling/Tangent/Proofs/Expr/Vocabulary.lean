import Mathlib.Tactic.MkIffOfInductiveProp
import Tangent.Proofs.Expr.Derivative
import Tangent.Proofs.Expr.Evaluation
import Tangent.Proofs.Expr.Reduction

/-!
# What formulas are made of

A vocabulary says which names may stand for variables and which numbers may be constants. A tree
over a vocabulary takes nothing else, and calls functions only in accepted ways. Differentiation and
simplification never fail on such a tree and stay inside its vocabulary, as long as that has the
numbers they bring in: the small whole numbers of the rules, and the finite results of folding.
-/

namespace Tangent

variable {ν : Type}

/-- The names and numbers that a tree may be made of. -/
structure Vocabulary (ν : Type) where
  IsVariable : String → Prop
  IsConstant : ν → Prop

namespace Vocabulary

/-- Whether a vocabulary has the whole numbers that rules of calculus bring in. -/
def HasWholes [Arithmetic ν] (vocabulary : Vocabulary ν) : Prop :=
  ∀ number ≤ 2, vocabulary.IsConstant (Arithmetic.ofNat number)

/-- Whether a vocabulary has every finite number. -/
def HasFinite [Arithmetic ν] (vocabulary : Vocabulary ν) : Prop :=
  ∀ value, Arithmetic.isFinite value = true → vocabulary.IsConstant value

/-- The vocabulary of all names and numbers. -/
def everything : Vocabulary ν where
  IsVariable _ := True
  IsConstant _ := True

theorem hasWholes_everything [Arithmetic ν] : (everything : Vocabulary ν).HasWholes :=
  fun _ _ => trivial

theorem hasFinite_everything [Arithmetic ν] : (everything : Vocabulary ν).HasFinite :=
  fun _ _ => trivial

end Vocabulary

namespace Expr

/-- A tree of accepted calls over the variables and constants of a vocabulary. -/
@[mk_iff]
structure Over (vocabulary : Vocabulary ν) (tree : Expr ν) : Prop where
  accepted : tree.CallsAccepted
  names : ∀ name ∈ tree.names, vocabulary.IsVariable name
  constants : ∀ value, const value ∈ tree.subtrees → vocabulary.IsConstant value

/-- Accepted calls are all that a tree over everything needs. -/
theorem over_everything_iff {tree : Expr ν} : tree.Over .everything ↔ tree.CallsAccepted :=
  ⟨Over.accepted, fun accepted => ⟨accepted, fun _ _ => trivial, fun _ _ => trivial⟩⟩

section Shapes

variable {vocabulary : Vocabulary ν} {operand left right : Expr ν} {operator : BinaryOperator}
  {name : String} {arguments : List (Expr ν)} {value : ν}

@[simp]
theorem over_const : (const value).Over vocabulary ↔ vocabulary.IsConstant value := by
  simp [over_iff, Expr.names, subtrees]

@[simp]
theorem over_var : (var name : Expr ν).Over vocabulary ↔ vocabulary.IsVariable name := by
  simp [over_iff, Expr.names, subtrees]

@[simp]
theorem over_neg : (neg operand).Over vocabulary ↔ operand.Over vocabulary := by
  simp [over_iff, Expr.names, subtrees]

@[simp]
theorem over_binary :
    (binary operator left right).Over vocabulary ↔
      left.Over vocabulary ∧ right.Over vocabulary := by
  simp only [over_iff, callsAccepted_binary, names, subtrees, List.mem_append, List.mem_cons,
    reduceCtorEq, false_or, or_imp, forall_and]
  exact (and_congr_right' and_and_and_comm).trans and_and_and_comm

theorem over_call :
    (call name arguments).Over vocabulary ↔
      (call name arguments).hasAcceptedRoot = true ∧
        ∀ argument ∈ arguments, argument.Over vocabulary := by
  simp only [over_iff, CallsAccepted, throughout_call, names, namesOfAll_eq_flatMap, subtrees,
    subtreesOfAll_eq_flatMap, List.mem_cons, reduceCtorEq, false_or, List.mem_flatMap]
  constructor
  · rintro ⟨⟨root, accepted⟩, free, constants⟩
    exact ⟨root, fun argument present => ⟨accepted argument present,
      fun other inside => free other ⟨argument, present, inside⟩,
      fun value inside => constants value ⟨argument, present, inside⟩⟩⟩
  · rintro ⟨root, each⟩
    refine ⟨⟨root, fun argument present => (each argument present).1⟩, ?_, ?_⟩
    · rintro other ⟨argument, present, inside⟩
      exact (each argument present).2.1 other inside
    · rintro value ⟨argument, present, inside⟩
      exact (each argument present).2.2 value inside

@[simp]
theorem over_apply {function : Elementary} :
    (apply function operand).Over vocabulary ↔ operand.Over vocabulary := by
  have root : (call function.name [operand]).hasAcceptedRoot = true :=
    hasAcceptedRoot_call_iff.2
      (.inl ⟨function, operand, Elementary.ofName?_eq_some_iff.2 rfl, rfl⟩)
  rw [apply, over_call]
  simp [root]

end Shapes

variable [Arithmetic ν] {vocabulary : Vocabulary ν}

section Rules

variable {name : String} {tree left right leftRate rightRate : Expr ν}

theorem over_whole (wholes : vocabulary.HasWholes) {number : Nat} (small : number ≤ 2) :
    (whole number : Expr ν).Over vocabulary :=
  over_const.2 (wholes number small)

theorem over_quotientRule (wholes : vocabulary.HasWholes) (leftOver : left.Over vocabulary)
    (rightOver : right.Over vocabulary) (leftRateOver : leftRate.Over vocabulary)
    (rightRateOver : rightRate.Over vocabulary) :
    (quotientRule left right leftRate rightRate).Over vocabulary := by
  simp [quotientRule, leftOver, rightOver, leftRateOver, rightRateOver, over_whole wholes]

theorem over_functionRule (wholes : vocabulary.HasWholes) (function : Elementary)
    (isOver : tree.Over vocabulary) (rateOver : leftRate.Over vocabulary) :
    (functionRule function tree leftRate).Over vocabulary := by
  cases function <;> simp [functionRule, oneMinusSquare, isOver, rateOver, over_whole wholes]

theorem over_operationRule (wholes : vocabulary.HasWholes) (operator : BinaryOperator)
    (leftOver : left.Over vocabulary) (rightOver : right.Over vocabulary)
    (leftRateOver : leftRate.Over vocabulary) (rightRateOver : rightRate.Over vocabulary) :
    (operationRule name operator left right leftRate rightRate).Over vocabulary := by
  cases operator with
  | pow =>
    rw [operationRule, powerRule]
    split
    · simp [leftOver, rightOver, leftRateOver, over_whole wholes]
    · split <;> simp [leftOver, rightOver, leftRateOver, rightRateOver]
  | div => exact over_quotientRule wholes leftOver rightOver leftRateOver rightRateOver
  | _ => simp [operationRule, leftOver, rightOver, leftRateOver, rightRateOver]

/-- Every tree over a vocabulary has a derivative, and that is over it too. -/
theorem exists_derivative_over (name : String) (wholes : vocabulary.HasWholes)
    (isOver : tree.Over vocabulary) :
    ∃ rate, tree.derivative name = .ok rate ∧ rate.Over vocabulary := by
  induction tree with
  | const value => exact ⟨whole 0, rfl, over_whole wholes (by decide)⟩
  | var other =>
    refine ⟨_, rfl, ?_⟩
    split <;> exact over_whole wholes (by decide)
  | neg operand inductionHypothesis =>
    obtain ⟨rate, known, rateOver⟩ := inductionHypothesis (over_neg.1 isOver)
    refine ⟨neg rate, ?_, over_neg.2 rateOver⟩
    rw [derivative, known]
    rfl
  | binary operator left right leftHypothesis rightHypothesis =>
    obtain ⟨leftOver, rightOver⟩ := over_binary.1 isOver
    obtain ⟨leftRate, leftKnown, leftRateOver⟩ := leftHypothesis leftOver
    obtain ⟨rightRate, rightKnown, rightRateOver⟩ := rightHypothesis rightOver
    exact ⟨_, derivative_binary operator leftKnown rightKnown,
      over_operationRule wholes operator leftOver rightOver leftRateOver rightRateOver⟩
  | call called arguments inductionHypothesis =>
    obtain ⟨root, each⟩ := over_call.1 isOver
    have known (argument : Expr ν) (present : argument ∈ arguments) :=
      inductionHypothesis argument present (each argument present)
    rcases hasAcceptedRoot_call_iff.1 root with
      ⟨function, argument, registered, rfl⟩ | ⟨argument, base, registered, rfl⟩
    · obtain ⟨rate, argumentKnown, rateOver⟩ := known argument (by simp)
      exact ⟨_, derivative_call_one registered argumentKnown,
        over_functionRule wholes function (each argument (by simp)) rateOver⟩
    · obtain ⟨argumentRate, argumentKnown, argumentRateOver⟩ := known argument (by simp)
      obtain ⟨baseRate, baseKnown, baseRateOver⟩ := known base (by simp)
      have argumentOver := each argument (by simp)
      have baseOver := each base (by simp)
      exact ⟨_, derivative_call_two registered argumentKnown baseKnown,
        over_quotientRule wholes (over_apply.2 argumentOver) (over_apply.2 baseOver)
          (over_functionRule wholes .log argumentOver argumentRateOver)
          (over_functionRule wholes .log baseOver baseRateOver)⟩

end Rules

section Passes

variable {tree after : Expr ν}

/-- A reduction of a tree over a vocabulary is over it too. -/
theorem ReducesTo.isOver (wholes : vocabulary.HasWholes) (finite : vocabulary.HasFinite)
    (reduces : ReducesTo tree after) (isOver : tree.Over vocabulary) : after.Over vocabulary := by
  cases reduces with
  | refl => exact isOver
  | value inner isFinite => exact over_const.2 (finite _ isFinite)
  | negatedTwice => exact over_neg.1 (over_neg.1 isOver)
  | left => exact (over_binary.1 isOver).1
  | right => exact (over_binary.1 isOver).2
  | negatedRight => exact over_neg.2 (over_binary.1 isOver).2
  | whole operator left right small =>
    exact over_const.2 (wholes _ (Nat.le_trans small (by decide)))

/-- Folding a tree of accepted calls without variables succeeds. -/
theorem exists_folded (accepted : tree.CallsAccepted) (closed : tree.names = []) :
    ∃ after, folded tree = .ok after := by
  have noneFree : ∀ name ∈ tree.names, ∃ value, Bindings.empty name = some (value : ν) := by
    simp [closed]
  obtain ⟨value, known⟩ := exists_evaluate noneFree accepted
  exact ⟨_, by rw [folded, known]; rfl⟩

/-- A node of accepted calls is rebuilt if it is only folded where it has no variables. -/
theorem exists_rebuilt {foldable : Bool} {otherwise : Expr ν} (accepted : tree.CallsAccepted)
    (closed : foldable = true → tree.names = []) :
    ∃ after, (if foldable then folded tree else .ok otherwise) = .ok after := by
  split
  · next isFoldable => exact exists_folded accepted (closed isFoldable)
  · exact ⟨otherwise, rfl⟩

/-- A pass stays over the vocabulary of the tree. -/
theorem pass_over (wholes : vocabulary.HasWholes) (finite : vocabulary.HasFinite)
    (passed : pass tree = .ok after) (isOver : tree.Over vocabulary) : after.Over vocabulary := by
  induction tree generalizing after with
  | const value => exact Except.ok.inj passed ▸ isOver
  | var name => exact Except.ok.inj passed ▸ isOver
  | neg operand inductionHypothesis =>
    obtain ⟨rebuilt, operandPassed, reduces⟩ := exists_of_pass_neg passed
    exact reduces.isOver wholes finite
      (over_neg.2 (inductionHypothesis operandPassed (over_neg.1 isOver)))
  | binary operator left right leftHypothesis rightHypothesis =>
    obtain ⟨newLeft, newRight, leftPassed, rightPassed, reduces⟩ := exists_of_pass_binary passed
    obtain ⟨leftOver, rightOver⟩ := over_binary.1 isOver
    exact reduces.isOver wholes finite
      (over_binary.2 ⟨leftHypothesis leftPassed leftOver, rightHypothesis rightPassed rightOver⟩)
  | call name arguments inductionHypothesis =>
    obtain ⟨rebuilt, argumentsPassed, reduces⟩ := exists_of_pass_call passed
    obtain ⟨root, each⟩ := over_call.1 isOver
    refine reduces.isOver wholes finite (over_call.2 ⟨?_, fun result present => ?_⟩)
    · rwa [hasAcceptedRoot, length_passAll argumentsPassed]
    · obtain ⟨argument, inside, argumentPassed⟩ := exists_of_mem_passAll argumentsPassed present
      exact inductionHypothesis argument inside argumentPassed (each argument inside)

/-- A pass over trees that can each be passed over succeeds. -/
theorem exists_passAll {trees : List (Expr ν)}
    (each : ∀ tree ∈ trees, ∃ after, pass tree = .ok after) :
    ∃ after, passAll trees = .ok after := by
  induction trees with
  | nil => exact ⟨[], rfl⟩
  | cons tree rest inductionHypothesis =>
    obtain ⟨⟨first, firstPassed⟩, inRest⟩ := List.forall_mem_cons.1 each
    obtain ⟨others, othersPassed⟩ := inductionHypothesis inRest
    exact ⟨first :: others, by rw [passAll, firstPassed, othersPassed]; rfl⟩

/-- A pass over a tree of accepted calls leaves accepted calls. -/
theorem callsAccepted_of_pass (passed : pass tree = .ok after) (accepted : tree.CallsAccepted) :
    after.CallsAccepted :=
  (pass_over Vocabulary.hasWholes_everything Vocabulary.hasFinite_everything passed
    (over_everything_iff.2 accepted)).accepted

/-- A pass over a tree of accepted calls succeeds. -/
theorem exists_pass (accepted : tree.CallsAccepted) : ∃ after, pass tree = .ok after := by
  induction tree with
  | const value => exact ⟨_, rfl⟩
  | var name => exact ⟨_, rfl⟩
  | neg operand inductionHypothesis =>
    have operandAccepted := callsAccepted_neg.1 accepted
    obtain ⟨rebuilt, passed⟩ := inductionHypothesis operandAccepted
    rw [pass, passed]
    have rebuiltAccepted := callsAccepted_of_pass passed operandAccepted
    refine exists_rebuilt (callsAccepted_neg.2 rebuiltAccepted) fun isConstant => ?_
    rw [names, names_eq_nil_of_isConstant isConstant]
  | binary operator left right leftHypothesis rightHypothesis =>
    obtain ⟨leftAccepted, rightAccepted⟩ := callsAccepted_binary.1 accepted
    obtain ⟨newLeft, leftPassed⟩ := leftHypothesis leftAccepted
    obtain ⟨newRight, rightPassed⟩ := rightHypothesis rightAccepted
    rw [pass, leftPassed, rightPassed]
    refine exists_rebuilt (callsAccepted_binary.2 ⟨callsAccepted_of_pass leftPassed leftAccepted,
      callsAccepted_of_pass rightPassed rightAccepted⟩) fun both => ?_
    obtain ⟨leftConstant, rightConstant⟩ := Bool.and_eq_true_iff.1 both
    rw [names, names_eq_nil_of_isConstant leftConstant, names_eq_nil_of_isConstant rightConstant]
    rfl
  | call name arguments inductionHypothesis =>
    obtain ⟨root, each⟩ := throughout_call.1 accepted
    obtain ⟨rebuilt, argumentsPassed⟩ := exists_passAll fun argument present =>
      inductionHypothesis argument present (each argument present)
    rw [pass, argumentsPassed]
    refine exists_rebuilt (throughout_call.2 ⟨?_, fun result present => ?_⟩) fun all => ?_
    · rwa [hasAcceptedRoot, length_passAll argumentsPassed]
    · obtain ⟨argument, inside, passed⟩ := exists_of_mem_passAll argumentsPassed present
      exact callsAccepted_of_pass passed (each argument inside)
    · rw [names, namesOfAll_eq_nil_of_isConstant all]

/-- However many passes are made, a tree over a vocabulary is simplified to one over it. -/
theorem exists_simplify_over (wholes : vocabulary.HasWholes) (finite : vocabulary.HasFinite)
    (isOver : tree.Over vocabulary) (number : Nat) :
    ∃ simplified, simplify number tree = .ok simplified ∧ simplified.tree.Over vocabulary := by
  have passed : ∃ after, passes number tree = .ok after ∧ after.Over vocabulary := by
    induction number generalizing tree with
    | zero => exact ⟨tree, rfl, isOver⟩
    | succ number inductionHypothesis =>
      obtain ⟨next, passed⟩ := exists_pass isOver.accepted
      rw [passes_succ passed]
      exact inductionHypothesis (pass_over wholes finite passed isOver)
  obtain ⟨after, passed, afterOver⟩ := passed
  rw [← tree_simplify] at passed
  obtain ⟨simplified, succeeded, rfl⟩ := map_eq_ok_iff.1 passed
  exact ⟨simplified, succeeded, afterOver⟩

/-- However many passes are made, a tree of accepted calls is simplified to another one. -/
theorem exists_simplify_accepted (accepted : tree.CallsAccepted) (number : Nat) :
    ∃ simplified, simplify number tree = .ok simplified ∧ simplified.tree.CallsAccepted := by
  obtain ⟨simplified, succeeded, isOver⟩ := exists_simplify_over Vocabulary.hasWholes_everything
    Vocabulary.hasFinite_everything (over_everything_iff.2 accepted) number
  exact ⟨simplified, succeeded, isOver.accepted⟩

end Passes

end Expr

end Tangent
