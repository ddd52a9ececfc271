import Mathlib.Data.List.Basic
import Mathlib.Logic.Equiv.Basic
import Tangent.Number.Binary64
import Tangent.Proofs.Series.Fitting
import Tangent.Proofs.Expr.Vocabulary

/-!
# Names of variables

What the variables of a tree are called makes no difference, as long as different variables have
different names: a tree under other names has the derivative, the simplified form and the values of
the tree, under those names. Rules ask only whether a variable occurs, the simplifier only whether
trees are alike, and evaluation only what a name is bound to, and an injective renaming changes no
answer.
-/

namespace Tangent

variable {ν α : Type} {rename : String → String}

namespace Expr

mutual

/-- A tree with its variables under other names. -/
def renamed (rename : String → String) : Expr ν → Expr ν
  | const value => const value
  | var name => var (rename name)
  | neg operand => neg (operand.renamed rename)
  | binary operator left right => binary operator (left.renamed rename) (right.renamed rename)
  | call name arguments => call name (renamedAll rename arguments)

/-- Some trees with their variables under other names. -/
def renamedAll (rename : String → String) : List (Expr ν) → List (Expr ν)
  | [] => []
  | tree :: rest => tree.renamed rename :: renamedAll rename rest

end

theorem renamedAll_eq_map (trees : List (Expr ν)) :
    renamedAll rename trees = trees.map (renamed rename) := by
  induction trees with
  | nil => rfl
  | cons tree rest inductionHypothesis => rw [renamedAll, inductionHypothesis, List.map_cons]

/-- The names of the variables are the other ones, in the same order. -/
theorem names_renamed (tree : Expr ν) : (tree.renamed rename).names = tree.names.map rename := by
  induction tree with
  | const value => rfl
  | var name => rfl
  | neg operand inductionHypothesis => exact inductionHypothesis
  | binary operator left right leftHypothesis rightHypothesis =>
    rw [renamed, names, names, leftHypothesis, rightHypothesis, List.map_append]
  | call name arguments inductionHypothesis =>
    rw [renamed, names, names, renamedAll_eq_map, namesOfAll_eq_flatMap, namesOfAll_eq_flatMap,
      List.flatMap_map, List.map_flatMap]
    exact List.flatMap_congr inductionHypothesis

/-- A variable occurs under its other name where it occurred. -/
theorem dependsOn_renamed (injective : Function.Injective rename) (name : String)
    (tree : Expr ν) : (tree.renamed rename).dependsOn (rename name) = tree.dependsOn name := by
  rw [Bool.eq_iff_iff, dependsOn_iff, dependsOn_iff, names_renamed]
  exact List.mem_map_of_injective injective

/-- A tree without variables stays as it is. -/
theorem renamed_eq_self {tree : Expr ν} (closed : tree.names = []) :
    tree.renamed rename = tree := by
  induction tree with
  | const value => rfl
  | var name => cases closed
  | neg operand inductionHypothesis => rw [renamed, inductionHypothesis closed]
  | binary operator left right leftHypothesis rightHypothesis =>
    obtain ⟨leftClosed, rightClosed⟩ := List.append_eq_nil_iff.1 closed
    rw [renamed, leftHypothesis leftClosed, rightHypothesis rightClosed]
  | call name arguments inductionHypothesis =>
    rw [names, namesOfAll_eq_flatMap, List.flatMap_eq_nil_iff] at closed
    rw [renamed, renamedAll_eq_map]
    have same : arguments.map (renamed rename) = arguments.map id :=
      List.map_congr_left fun argument present =>
        inductionHypothesis argument present (closed argument present)
    rw [same, List.map_id]

@[simp]
theorem constant?_renamed (tree : Expr ν) : (tree.renamed rename).constant? = tree.constant? := by
  cases tree <;> rfl

@[simp]
theorem isConstant_renamed (tree : Expr ν) :
    (tree.renamed rename).isConstant = tree.isConstant := by
  rw [isConstant, constant?_renamed, isConstant]

/-- Trees that were alike are so under other names, and no others are. -/
theorem alike_renamed (injective : Function.Injective rename) (agree : ν → ν → Bool)
    (tree other : Expr ν) :
    alike agree (tree.renamed rename) (other.renamed rename) = alike agree tree other := by
  have all (trees : List (Expr ν)) (each : ∀ tree ∈ trees, ∀ other,
      alike agree (tree.renamed rename) (other.renamed rename) = alike agree tree other)
      (others : List (Expr ν)) :
      allAlike agree (renamedAll rename trees) (renamedAll rename others) =
        allAlike agree trees others := by
    induction trees generalizing others with
    | nil => cases others <;> rfl
    | cons tree trees inductionHypothesis =>
      obtain ⟨first, rest⟩ := List.forall_mem_cons.1 each
      cases others with
      | nil => rfl
      | cons other others => simp only [renamedAll, allAlike, first, inductionHypothesis rest]
  induction tree generalizing other with
  | const value => cases other <;> rfl
  | var name =>
    cases other with
    | var other =>
      rw [renamed, renamed, alike, alike, Bool.eq_iff_iff, beq_iff_eq, beq_iff_eq]
      exact injective.eq_iff
    | _ => rfl
  | neg operand inductionHypothesis =>
    cases other with
    | neg other => exact inductionHypothesis other
    | _ => rfl
  | binary operator left right leftHypothesis rightHypothesis =>
    cases other with
    | binary operator' left' right' => simp only [renamed, alike, leftHypothesis, rightHypothesis]
    | _ => rfl
  | call name arguments inductionHypothesis =>
    cases other with
    | call name' arguments' => simp only [renamed, alike, all arguments inductionHypothesis]
    | _ => rfl

theorem renamed_negated (operand : Expr ν) :
    (negated operand).renamed rename = negated (operand.renamed rename) := by
  cases operand <;> rfl

variable [Arithmetic ν]

section Rules

variable {name : String}

theorem renamed_functionRule (function : Elementary) (argument rate : Expr ν) :
    (functionRule function argument rate).renamed rename =
      functionRule function (argument.renamed rename) (rate.renamed rename) := by
  cases function <;> rfl

/-- Rules are chosen by where the variable occurs, which is where it does under its other name. -/
theorem renamed_operationRule (injective : Function.Injective rename) (operator : BinaryOperator)
    (left right leftRate rightRate : Expr ν) :
    (operationRule name operator left right leftRate rightRate).renamed rename =
      operationRule (rename name) operator (left.renamed rename) (right.renamed rename)
        (leftRate.renamed rename) (rightRate.renamed rename) := by
  cases operator with
  | pow =>
    simp only [operationRule, powerRule, dependsOn_renamed injective]
    split
    · rfl
    · split <;> rfl
  | _ => rfl

/-- A tree of accepted calls is differentiated under other names as it is under its own. -/
theorem exists_derivative_renamed (injective : Function.Injective rename) (name : String)
    {tree : Expr ν} (accepted : tree.CallsAccepted) :
    ∃ rate, tree.derivative name = .ok rate ∧
      (tree.renamed rename).derivative (rename name) = .ok (rate.renamed rename) := by
  induction tree with
  | const value => exact ⟨whole 0, rfl, rfl⟩
  | var other =>
    refine ⟨_, rfl, ?_⟩
    rw [renamed, derivative]
    by_cases same : other = name
    · rw [if_pos same, if_pos (congrArg rename same)]
      rfl
    · rw [if_neg same, if_neg (injective.ne same)]
      rfl
  | neg operand inductionHypothesis =>
    obtain ⟨rate, known, renamedKnown⟩ := inductionHypothesis (callsAccepted_neg.1 accepted)
    refine ⟨neg rate, ?_, ?_⟩
    · rw [derivative, known]
      rfl
    · rw [renamed, derivative, renamedKnown]
      rfl
  | binary operator left right leftHypothesis rightHypothesis =>
    obtain ⟨leftAccepted, rightAccepted⟩ := callsAccepted_binary.1 accepted
    obtain ⟨leftRate, leftKnown, leftRenamed⟩ := leftHypothesis leftAccepted
    obtain ⟨rightRate, rightKnown, rightRenamed⟩ := rightHypothesis rightAccepted
    refine ⟨_, derivative_binary operator leftKnown rightKnown, ?_⟩
    rw [renamed_operationRule injective]
    exact derivative_binary operator leftRenamed rightRenamed
  | call called arguments inductionHypothesis =>
    obtain ⟨root, each⟩ := callsAccepted_call_iff.1 accepted
    have known (argument : Expr ν) (present : argument ∈ arguments) :=
      inductionHypothesis argument present (each argument present)
    rcases root with
      ⟨function, argument, registered, rfl⟩ | ⟨argument, base, registered, rfl⟩
    · obtain ⟨rate, argumentKnown, argumentRenamed⟩ := known argument (by simp)
      refine ⟨_, derivative_call_one registered argumentKnown, ?_⟩
      rw [renamed_functionRule]
      exact derivative_call_one registered argumentRenamed
    · obtain ⟨argumentRate, argumentKnown, argumentRenamed⟩ := known argument (by simp)
      obtain ⟨baseRate, baseKnown, baseRenamed⟩ := known base (by simp)
      exact ⟨_, derivative_call_two registered argumentKnown baseKnown,
        derivative_call_two registered argumentRenamed baseRenamed⟩

end Rules

section Passes

variable {tree after : Expr ν}

/-- Folding a tree without variables gives a tree without variables. -/
theorem renamed_of_folded (succeeded : folded tree = .ok after) (closed : tree.names = []) :
    after.renamed rename = after := by
  obtain ⟨value, _, returned⟩ := exists_of_bind_eq_ok succeeded
  split at returned
  · cases returned
    rfl
  · cases returned
    exact renamed_eq_self closed

theorem isWhole_renamed (number : Nat) (tree : Expr ν) :
    (tree.renamed rename).isWhole number = tree.isWhole number := by
  rw [isWhole, isConstantOf, constant?_renamed, isWhole, isConstantOf]

theorem renamed_withoutNeutral (operator : BinaryOperator) (left right : Expr ν) :
    (withoutNeutral operator left right).renamed rename =
      withoutNeutral operator (left.renamed rename) (right.renamed rename) := by
  cases operator <;> simp only [withoutNeutral, isWhole_renamed] <;> split_ifs <;> rfl

/-- A node that is folded only where it has no variables is rebuilt under other names as it is under
its own. -/
theorem rebuilt_renamed (tree : Expr ν) {foldable : Bool} {otherwise : Expr ν}
    (closed : foldable = true → tree.names = [])
    (finished : (if foldable then folded tree else .ok otherwise) = .ok after) :
    (if foldable then folded (tree.renamed rename) else .ok (otherwise.renamed rename)) =
      .ok (after.renamed rename) := by
  split at finished
  · next isFoldable =>
    rw [if_pos isFoldable, renamed_eq_self (closed isFoldable), finished,
      renamed_of_folded finished (closed isFoldable)]
  · next isOther =>
    cases finished
    exact if_neg isOther

/-- Passes over some trees under other names, if each is passed over so. -/
theorem passAll_renamed {trees results : List (Expr ν)}
    (each : ∀ tree ∈ trees, ∀ {after}, pass tree = .ok after →
      pass (tree.renamed rename) = .ok (after.renamed rename))
    (passed : passAll trees = .ok results) :
    passAll (renamedAll rename trees) = .ok (renamedAll rename results) := by
  induction trees generalizing results with
  | nil =>
    cases passed
    rfl
  | cons tree trees inductionHypothesis =>
    obtain ⟨first, rest⟩ := List.forall_mem_cons.1 each
    obtain ⟨result, treePassed, continued⟩ := exists_of_bind_eq_ok passed
    obtain ⟨others, treesPassed, returned⟩ := exists_of_bind_eq_ok continued
    cases returned
    rw [renamedAll, passAll, first treePassed, inductionHypothesis rest treesPassed]
    rfl

/-- A pass over a tree under other names does what it does to the tree. -/
theorem pass_renamed (passed : pass tree = .ok after) :
    pass (tree.renamed rename) = .ok (after.renamed rename) := by
  induction tree generalizing after with
  | const value =>
    cases passed
    rfl
  | var name =>
    cases passed
    rfl
  | neg operand inductionHypothesis =>
    obtain ⟨rebuilt, operandPassed, finished⟩ := exists_of_bind_eq_ok passed
    rw [renamed, pass, inductionHypothesis operandPassed]
    simp only [bind, Except.bind, isConstant_renamed, ← renamed_negated]
    refine rebuilt_renamed (neg rebuilt) (fun isConstant => ?_) finished
    rw [names, names_eq_nil_of_isConstant isConstant]
  | binary operator left right leftHypothesis rightHypothesis =>
    obtain ⟨newLeft, newRight, leftPassed, rightPassed, finished⟩ :=
      exists_operands_of_pass passed
    rw [renamed, pass, leftHypothesis leftPassed, rightHypothesis rightPassed]
    simp only [bind, Except.bind, isConstant_renamed, ← renamed_withoutNeutral]
    refine rebuilt_renamed (binary operator newLeft newRight) (fun areConstant => ?_) finished
    obtain ⟨leftConstant, rightConstant⟩ := Bool.and_eq_true_iff.1 areConstant
    rw [names, names_eq_nil_of_isConstant leftConstant, names_eq_nil_of_isConstant rightConstant]
    rfl
  | call name arguments inductionHypothesis =>
    obtain ⟨results, argumentsPassed, finished⟩ := exists_of_bind_eq_ok passed
    have areConstant : (renamedAll rename results).all isConstant = results.all isConstant := by
      rw [renamedAll_eq_map, List.all_map]
      exact congrArg results.all (funext isConstant_renamed)
    rw [renamed, pass, passAll_renamed inductionHypothesis argumentsPassed]
    simp only [bind, Except.bind, areConstant]
    refine rebuilt_renamed (call name results) (fun all => ?_) finished
    rw [names, namesOfAll_eq_nil_of_isConstant all]

/-- A simplified tree with its variables under other names. -/
def Simplified.renamed (rename : String → String) (simplified : Simplified ν) : Simplified ν :=
  ⟨simplified.tree.renamed rename, simplified.settled⟩

/-- A tree under other names is simplified as the tree is, in as many passes. -/
theorem simplify_renamed (injective : Function.Injective rename) {limit : Nat}
    {simplified : Simplified ν} (succeeded : simplify limit tree = .ok simplified) :
    simplify limit (tree.renamed rename) = .ok (simplified.renamed rename) := by
  induction limit generalizing tree with
  | zero =>
    cases succeeded
    rfl
  | succ limit inductionHypothesis =>
    obtain ⟨next, passed, continued⟩ := exists_of_bind_eq_ok succeeded
    rw [simplify, pass_renamed passed]
    simp only [bind, Except.bind, unchanged, alike_renamed injective]
    split at continued
    · next same =>
      cases continued
      exact if_pos same
    · next changed =>
      exact (if_neg changed).trans (inductionHypothesis continued)

end Passes

end Expr

/-- A fault with the name it is about, if that is a variable's, under its other name. -/
def EvaluationFault.renamed (rename : String → String) : EvaluationFault → EvaluationFault
  | unboundVariable name => unboundVariable (rename name)
  | fault => fault

/-- Bindings with their names under other names; no name but those is bound. -/
noncomputable def Bindings.renamed (rename : String → String) (bindings : Bindings α) :
    Bindings α :=
  Function.extend rename bindings Bindings.empty

/-- Under injective names each name keeps its value. -/
theorem Bindings.renamed_apply (injective : Function.Injective rename) (bindings : Bindings α)
    (name : String) : bindings.renamed rename (rename name) = bindings name :=
  injective.extend_apply bindings Bindings.empty name

section Values

variable {meaning : Interpretation ν α} {bindings others : Bindings α}

/-- Where operations fail without a name, calls do so too. -/
theorem Interpretation.mapError_call
    (nameless : ∀ operator left right, (meaning.combine operator left right).mapError
      (EvaluationFault.renamed rename) = meaning.combine operator left right)
    (function : Elementary) (arguments : List α) :
    (meaning.call function arguments).mapError (EvaluationFault.renamed rename) =
      meaning.call function arguments := by
  rcases arguments with _ | ⟨argument, _ | ⟨base, _ | ⟨_, rest⟩⟩⟩
  · cases function <;> rfl
  · cases function <;> rfl
  · cases function
    case log => exact nameless _ _ _
    all_goals rfl
  · cases function <;> rfl

namespace Expr

/-- Bindings that are carried along give some trees under other names the same values together, if
they do so one by one. -/
theorem evaluateAllIn_renamed {trees : List (Expr ν)}
    (each : ∀ tree ∈ trees, (tree.renamed rename).evaluateIn meaning others =
      (tree.evaluateIn meaning bindings).mapError (EvaluationFault.renamed rename)) :
    evaluateAllIn meaning others (renamedAll rename trees) =
      (evaluateAllIn meaning bindings trees).mapError (EvaluationFault.renamed rename) := by
  induction trees with
  | nil => rfl
  | cons tree trees inductionHypothesis =>
    obtain ⟨first, rest⟩ := List.forall_mem_cons.1 each
    rw [renamedAll, evaluateAllIn, evaluateAllIn, first, inductionHypothesis rest]
    simp only [mapError_bind]
    rfl

/-- Bindings that are carried along give a tree under other names the same value, or the same fault
under the other name. -/
theorem evaluateIn_renamed
    (nameless : ∀ operator left right, (meaning.combine operator left right).mapError
      (EvaluationFault.renamed rename) = meaning.combine operator left right)
    (carried : ∀ name, others (rename name) = bindings name) (tree : Expr ν) :
    (tree.renamed rename).evaluateIn meaning others =
      (tree.evaluateIn meaning bindings).mapError (EvaluationFault.renamed rename) := by
  induction tree with
  | const value => rfl
  | var name =>
    rw [renamed, evaluateIn, evaluateIn, carried]
    cases bindings name <;> rfl
  | neg operand inductionHypothesis =>
    rw [renamed, evaluateIn, evaluateIn, inductionHypothesis, mapError_bind]
    rfl
  | binary operator left right leftHypothesis rightHypothesis =>
    rw [renamed, evaluateIn, evaluateIn, leftHypothesis, rightHypothesis]
    simp only [mapError_bind, nameless]
  | call name arguments inductionHypothesis =>
    rw [renamed, evaluateIn, evaluateIn, evaluateAllIn_renamed inductionHypothesis]
    cases Elementary.ofName? name with
    | none => rfl
    | some function => simp only [mapError_bind, Interpretation.mapError_call nameless]

end Expr

end Values

/-- Series that do not fit together are no matter of names. -/
theorem Series.mapError_zip (operation : ν → ν → ν) (left right : Series ν) :
    (Series.zip operation left right).mapError (EvaluationFault.renamed rename) =
      Series.zip operation left right := by
  fun_cases Series.zip operation left right <;> rfl

namespace Expr

variable [Arithmetic ν]

/-- A tree under other names has the derivative, the simplified form and the values of the tree,
under those names; where it has no value, the fault is the same but for the name. -/
structure CommutesWith (rename : String → String) (name : String) (tree : Expr ν) : Prop where
  derivative : ∃ rate, tree.derivative name = .ok rate ∧
    (tree.renamed rename).derivative (rename name) = .ok (rate.renamed rename)
  simplify : ∀ limit, ∃ simplified, tree.simplify limit = .ok simplified ∧
    (tree.renamed rename).simplify limit = .ok (simplified.renamed rename)
  evaluate : ∀ bindings, (tree.renamed rename).evaluate (bindings.renamed rename) =
    (tree.evaluate bindings).mapError (EvaluationFault.renamed rename)
  evaluateSeries : ∀ bindings, (tree.renamed rename).evaluateSeries (bindings.renamed rename) =
    (tree.evaluateSeries bindings).mapError (EvaluationFault.renamed rename)

/-- The names of variables do not matter as long as they are told apart. -/
theorem commutesWith_injective (injective : Function.Injective rename) (name : String)
    {tree : Expr ν} (accepted : tree.CallsAccepted) : tree.CommutesWith rename name where
  derivative := exists_derivative_renamed injective name accepted
  simplify limit := by
    obtain ⟨simplified, succeeded, _⟩ := exists_simplify_over Vocabulary.hasWholes_everything
      Vocabulary.hasFinite_everything (over_everything_iff.2 accepted) limit
    exact ⟨simplified, succeeded, simplify_renamed injective succeeded⟩
  evaluate bindings :=
    evaluateIn_renamed (fun _ _ _ => rfl) (bindings.renamed_apply injective) tree
  evaluateSeries bindings :=
    evaluateIn_renamed (fun _ => Series.mapError_zip _)
      (bindings.renamed_apply injective) tree

/-- A power of a logarithm to a base, with the two variables that both depend on exchanged. -/
theorem commutesWith_exchange :
    let tree : Expr Float := binary .pow (call "log" [var "t", var "x"]) (var "x")
    Function.Injective (Equiv.swap "x" "t") ∧ tree.CallsAccepted ∧
      tree.renamed (Equiv.swap "x" "t") = binary .pow (call "log" [var "x", var "t"]) (var "t") ∧
      tree.CommutesWith (Equiv.swap "x" "t") "x" := by
  intro tree
  have accepted : tree.CallsAccepted := by decide
  have injective : Function.Injective (Equiv.swap "x" "t") := Equiv.injective _
  exact ⟨injective, accepted, rfl, commutesWith_injective injective "x" accepted⟩

end Expr

end Tangent
