import Tangent.Elementary
import Tangent.Expr.Basic

/-!
# Properties of every part

A property holds throughout a tree when the tree and every tree inside it has it. The equations
below take such a property apart along the shape of the tree, so that an induction on the tree
finds the property of its parts at hand. The first use of this is that every call in a tree is the
call of an elementary function with as many arguments as that function takes.
-/

namespace Tangent

namespace Elementary

/-- Every function takes one argument, and a logarithm may have its base as a second one. -/
theorem accepts_iff {function : Elementary} {count : Nat} :
    function.accepts count = true ↔ count = 1 ∨ function = log ∧ count = 2 := by
  have most : function.mostArguments = if function = log then 2 else 1 := by
    cases function <;> rfl
  rw [accepts, Bool.and_eq_true, decide_eq_true_iff, decide_eq_true_iff, leastArguments, most]
  by_cases logarithm : function = log
  · rw [if_pos logarithm, and_iff_right logarithm]
    omega
  · rw [if_neg logarithm, or_iff_left fun both => logarithm both.1]
    omega

end Elementary

namespace Expr

variable {ν : Type}

mutual

/-- The trees inside a tree, itself first. -/
def subtrees : Expr ν → List (Expr ν)
  | const value => [const value]
  | var name => [var name]
  | neg operand => neg operand :: operand.subtrees
  | binary operator left right => binary operator left right :: (left.subtrees ++ right.subtrees)
  | call name arguments => call name arguments :: subtreesOfAll arguments

/-- The trees inside some trees. -/
def subtreesOfAll : List (Expr ν) → List (Expr ν)
  | [] => []
  | tree :: rest => tree.subtrees ++ subtreesOfAll rest

end

theorem subtreesOfAll_eq_flatMap (trees : List (Expr ν)) :
    subtreesOfAll trees = trees.flatMap subtrees := by
  induction trees with
  | nil => rfl
  | cons tree rest inductionHypothesis => simp [subtreesOfAll, inductionHypothesis]

/-- A tree is inside itself. -/
theorem mem_subtrees_self (tree : Expr ν) : tree ∈ tree.subtrees := by
  cases tree <;> exact List.mem_cons_self

/-- The variables inside a tree are those it has names of. -/
theorem var_mem_subtrees_iff {tree : Expr ν} {name : String} :
    var name ∈ tree.subtrees ↔ name ∈ tree.names := by
  induction tree with
  | const value => simp [subtrees, names]
  | var other => simp [subtrees, names]
  | neg operand inductionHypothesis => simp [subtrees, names, inductionHypothesis]
  | binary operator left right leftHypothesis rightHypothesis =>
    simp [subtrees, names, leftHypothesis, rightHypothesis]
  | call other arguments inductionHypothesis =>
    simp only [subtrees, names, subtreesOfAll_eq_flatMap, namesOfAll_eq_flatMap, List.mem_cons,
      List.mem_flatMap, reduceCtorEq, false_or]
    exact exists_congr fun argument => and_congr_right (inductionHypothesis argument)

/-- Whether a property holds of every tree inside a tree. -/
def Throughout (property : Expr ν → Prop) (tree : Expr ν) : Prop :=
  ∀ part ∈ tree.subtrees, property part

namespace Throughout

/-- What holds throughout a tree holds of it. -/
theorem self {property : Expr ν → Prop} {tree : Expr ν} (throughout : Throughout property tree) :
    property tree :=
  throughout tree tree.mem_subtrees_self

end Throughout

section Shapes

variable {property : Expr ν → Prop} {value : ν} {name : String} {operand left right : Expr ν}
  {operator : BinaryOperator} {arguments : List (Expr ν)}

@[simp]
theorem throughout_const : Throughout property (const value) ↔ property (const value) := by
  simp [Throughout, subtrees]

@[simp]
theorem throughout_var : Throughout property (var name) ↔ property (var name) := by
  simp [Throughout, subtrees]

@[simp]
theorem throughout_neg :
    Throughout property (neg operand) ↔ property (neg operand) ∧ Throughout property operand := by
  simp [Throughout, subtrees]

@[simp]
theorem throughout_binary :
    Throughout property (binary operator left right) ↔
      property (binary operator left right) ∧
        Throughout property left ∧ Throughout property right := by
  simp [Throughout, subtrees, or_imp, forall_and]

@[simp]
theorem throughout_call :
    Throughout property (call name arguments) ↔
      property (call name arguments) ∧ ∀ argument ∈ arguments, Throughout property argument := by
  simp only [Throughout, subtrees, subtreesOfAll_eq_flatMap, List.forall_mem_cons,
    List.forall_mem_flatMap]

end Shapes

/-- Whether the root of a tree, if it is a call, calls an elementary function with a number of
arguments it takes. -/
def hasAcceptedRoot : Expr ν → Bool
  | call name arguments => (Elementary.ofName? name).any (·.accepts arguments.length)
  | _ => true

/-- Every call in a tree is the call of an elementary function with as many arguments as it
takes. -/
def CallsAccepted (tree : Expr ν) : Prop :=
  tree.Throughout fun part => part.hasAcceptedRoot = true

instance (tree : Expr ν) : Decidable tree.CallsAccepted :=
  inferInstanceAs (Decidable (∀ part ∈ tree.subtrees, part.hasAcceptedRoot = true))

@[simp]
theorem callsAccepted_const (value : ν) : (const value).CallsAccepted :=
  throughout_const.2 rfl

@[simp]
theorem callsAccepted_var (name : String) : (var name : Expr ν).CallsAccepted :=
  throughout_var.2 rfl

@[simp]
theorem callsAccepted_neg {operand : Expr ν} :
    (neg operand).CallsAccepted ↔ operand.CallsAccepted :=
  throughout_neg.trans (and_iff_right rfl)

@[simp]
theorem callsAccepted_binary {operator : BinaryOperator} {left right : Expr ν} :
    (binary operator left right).CallsAccepted ↔ left.CallsAccepted ∧ right.CallsAccepted :=
  throughout_binary.trans (and_iff_right rfl)

/-- An accepted call has one argument, or is a logarithm with its base. -/
theorem hasAcceptedRoot_call_iff {name : String} {arguments : List (Expr ν)} :
    (call name arguments).hasAcceptedRoot = true ↔
      (∃ function argument, Elementary.ofName? name = some function ∧ arguments = [argument]) ∨
        ∃ argument base, Elementary.ofName? name = some .log ∧ arguments = [argument, base] := by
  rw [hasAcceptedRoot, Option.any_eq_true]
  constructor
  · rintro ⟨function, registered, accepted⟩
    rcases Elementary.accepts_iff.1 accepted with single | ⟨rfl, double⟩
    · obtain ⟨argument, rfl⟩ := List.length_eq_one_iff.1 single
      exact .inl ⟨function, argument, registered, rfl⟩
    · match arguments, double with
      | [argument, base], _ => exact .inr ⟨argument, base, registered, rfl⟩
  · rintro (⟨function, argument, registered, rfl⟩ | ⟨argument, base, registered, rfl⟩)
    · exact ⟨function, registered, Elementary.accepts_iff.2 (.inl rfl)⟩
    · exact ⟨.log, registered, rfl⟩

/-- Calls with one argument and logarithms to a base are accepted where their arguments are. -/
theorem callsAccepted_call_iff {name : String} {arguments : List (Expr ν)} :
    (call name arguments).CallsAccepted ↔
      ((∃ function argument, Elementary.ofName? name = some function ∧ arguments = [argument]) ∨
        ∃ argument base, Elementary.ofName? name = some .log ∧ arguments = [argument, base]) ∧
      ∀ argument ∈ arguments, argument.CallsAccepted :=
  throughout_call.trans (and_congr_left' hasAcceptedRoot_call_iff)

end Expr

end Tangent
