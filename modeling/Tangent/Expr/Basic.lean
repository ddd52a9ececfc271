/-!
# Formula trees

A formula is a tree of constants, variables, negations, binary operations and calls. Calls hold
any name and any number of arguments, so that a tree can be built first and judged later. This
module also measures trees, lists their variables and compares them.
-/

namespace Tangent

/-- The binary operations of formulas. -/
inductive BinaryOperator where
  | add | sub | mul | div | pow
  deriving DecidableEq, Repr

/-- The sign an operation is written with. -/
def BinaryOperator.symbol : BinaryOperator → Char
  | add => '+'
  | sub => '-'
  | mul => '*'
  | div => '/'
  | pow => '^'

/-- Formulas over the numbers `ν`. -/
inductive Expr (ν : Type) where
  | const (value : ν)
  | var (name : String)
  | neg (operand : Expr ν)
  | binary (operator : BinaryOperator) (left right : Expr ν)
  | call (name : String) (arguments : List (Expr ν))
  deriving Repr

namespace Expr

variable {ν : Type}

/-- Induction over trees. A property holds of every tree if it holds of the leaves, and of each
tree whose parts directly below the root have it. -/
@[elab_as_elim, induction_eliminator]
theorem induction {motive : Expr ν → Prop}
    (const : ∀ value, motive (const value))
    (var : ∀ name, motive (var name))
    (neg : ∀ operand, motive operand → motive (neg operand))
    (binary : ∀ operator left right, motive left → motive right →
      motive (binary operator left right))
    (call : ∀ name arguments, (∀ argument ∈ arguments, motive argument) →
      motive (call name arguments))
    (tree : Expr ν) : motive tree :=
  @Expr.rec ν motive (fun trees => ∀ tree ∈ trees, motive tree) const var neg binary call
    (fun _ absent => nomatch absent)
    (fun _ _ first others => List.forall_mem_cons.2 ⟨first, others⟩) tree

/-- The parts directly below the root, from left to right. -/
def children : Expr ν → List (Expr ν)
  | const _ => []
  | var _ => []
  | neg operand => [operand]
  | binary _ left right => [left, right]
  | call _ arguments => arguments

mutual

/-- How many nodes a tree has. -/
def count : Expr ν → Nat
  | const _ => 1
  | var _ => 1
  | neg operand => operand.count + 1
  | binary _ left right => left.count + right.count + 1
  | call _ arguments => countAll arguments + 1

/-- How many nodes some trees have together. -/
def countAll : List (Expr ν) → Nat
  | [] => 0
  | tree :: rest => tree.count + countAll rest

end

theorem countAll_append (trees others : List (Expr ν)) :
    countAll (trees ++ others) = countAll trees + countAll others := by
  induction trees with
  | nil => exact (Nat.zero_add _).symm
  | cons tree rest inductionHypothesis =>
    rw [List.cons_append, countAll, countAll, inductionHypothesis, Nat.add_assoc]

theorem countAll_reverse (trees : List (Expr ν)) : countAll trees.reverse = countAll trees := by
  induction trees with
  | nil => rfl
  | cons tree rest inductionHypothesis =>
    rw [List.reverse_cons, countAll_append, inductionHypothesis, Nat.add_comm]
    rfl

/-- A tree has one node more than its children have together. -/
theorem count_eq_countAll_children (tree : Expr ν) :
    tree.count = countAll tree.children + 1 := by
  cases tree <;> rfl

/-- No tree is without nodes. -/
theorem count_pos (tree : Expr ν) : 0 < tree.count := by
  cases tree <;> simp [count]

mutual

/-- How many nodes lie on the longest way from the root down. -/
def depth : Expr ν → Nat
  | const _ => 1
  | var _ => 1
  | neg operand => operand.depth + 1
  | binary _ left right => max left.depth right.depth + 1
  | call _ arguments => greatestDepth arguments + 1

/-- The greatest depth of some trees, zero if there are none. -/
def greatestDepth : List (Expr ν) → Nat
  | [] => 0
  | tree :: rest => max tree.depth (greatestDepth rest)

end

/-- The greatest depth of some trees is at most the bounds of all their depths. -/
theorem greatestDepth_le_iff {trees : List (Expr ν)} {bound : Nat} :
    greatestDepth trees ≤ bound ↔ ∀ tree ∈ trees, tree.depth ≤ bound := by
  induction trees with
  | nil => simp [greatestDepth]
  | cons tree rest inductionHypothesis =>
    simp only [greatestDepth, Nat.max_le, inductionHypothesis, List.forall_mem_cons]

mutual

/-- The names at the variable nodes of a tree, from left to right, with repetitions. -/
def names : Expr ν → List String
  | const _ => []
  | var name => [name]
  | neg operand => operand.names
  | binary _ left right => left.names ++ right.names
  | call _ arguments => namesOfAll arguments

/-- The names at the variable nodes of some trees. -/
def namesOfAll : List (Expr ν) → List String
  | [] => []
  | tree :: rest => tree.names ++ namesOfAll rest

end

theorem namesOfAll_eq_flatMap (trees : List (Expr ν)) :
    namesOfAll trees = trees.flatMap names := by
  induction trees with
  | nil => rfl
  | cons tree rest inductionHypothesis => simp [namesOfAll, inductionHypothesis]

/-- The names met so far, and that of a tree if it is a variable. No name is listed twice. -/
def noted (met : List String) : Expr ν → List String
  | var name => met.insert name
  | _ => met

/-- Visits the trees on a stack. The tree on top makes way for its children, the last one on top,
until none is left. -/
def visit (met : List String) : List (Expr ν) → List String
  | [] => met
  | tree :: stack => visit (noted met tree) (tree.children.reverse ++ stack)
termination_by stack => countAll stack
decreasing_by
  rw [countAll_append, countAll_reverse, countAll, count_eq_countAll_children]
  omega

/-- The names of the variables of a tree, each once. -/
def freeVariables (tree : Expr ν) : List String :=
  visit [] [tree]

/-- Whether a variable occurs in a tree. -/
def dependsOn (name : String) (tree : Expr ν) : Bool :=
  tree.freeVariables.contains name

/-- A visit notes the name of the tree itself and leaves those below it to its children. -/
theorem mem_noted_or_left {name : String} {met : List String} (tree : Expr ν)
    (stack : List (Expr ν)) :
    name ∈ noted met tree ∨ name ∈ namesOfAll (tree.children.reverse ++ stack) ↔
      name ∈ met ∨ name ∈ namesOfAll (tree :: stack) := by
  cases tree with
  | const value => rfl
  | var other => simp [noted, children, namesOfAll, names, or_assoc, or_left_comm]
  | neg operand => rfl
  | binary operator left right =>
    simp [noted, children, namesOfAll, names, or_left_comm]
  | call other arguments =>
    simp [noted, children, namesOfAll_eq_flatMap, names]

/-- All names that a stack holds are met in the end, besides those met before. -/
theorem mem_visit {name : String} {met : List String} {stack : List (Expr ν)} :
    name ∈ visit met stack ↔ name ∈ met ∨ name ∈ namesOfAll stack := by
  fun_induction visit met stack with
  | case1 met => simp [namesOfAll]
  | case2 met tree stack inductionHypothesis =>
    -- A name that is met or left on the stack is so before and after a visit.
    exact inductionHypothesis.trans (mem_noted_or_left tree stack)

@[simp]
theorem mem_freeVariables {name : String} {tree : Expr ν} :
    name ∈ tree.freeVariables ↔ name ∈ tree.names := by
  simp [freeVariables, mem_visit, namesOfAll]

example :
    let product : Expr Nat := binary .mul (var "x") (var "y")
    (binary .add product (call "sin" [var "t"])).freeVariables = ["x", "y", "t"] := by
  decide +kernel

@[simp]
theorem dependsOn_iff {name : String} {tree : Expr ν} :
    tree.dependsOn name = true ↔ name ∈ tree.names := by
  simp [dependsOn]

/-- The names of the variables of a tree, each once, in the order of their characters. -/
def sortedNames (tree : Expr ν) : List String :=
  tree.freeVariables.mergeSort fun left right => decide (left ≤ right)

@[simp]
theorem mem_sortedNames {name : String} {tree : Expr ν} :
    name ∈ tree.sortedNames ↔ name ∈ tree.names := by
  simp [sortedNames]

/-- The value of a tree that is a lone constant. -/
def constant? : Expr ν → Option ν
  | const value => some value
  | _ => none

/-- Whether a tree is a lone constant. -/
def isConstant (tree : Expr ν) : Bool :=
  tree.constant?.isSome

theorem isConstant_iff {tree : Expr ν} : tree.isConstant = true ↔ ∃ value, tree = const value := by
  cases tree <;> simp [isConstant, constant?]

/-- Whether a tree is a lone constant equal to a number. -/
def isConstantOf [BEq ν] (value : ν) (tree : Expr ν) : Bool :=
  tree.constant?.any (· == value)

mutual

/-- Whether two trees are alike, with constants compared by `agree`. -/
def alike (agree : ν → ν → Bool) : Expr ν → Expr ν → Bool
  | const left, const right => agree left right
  | var left, var right => left == right
  | neg left, neg right => alike agree left right
  | binary operator left right, binary operator' left' right' =>
    operator == operator' && alike agree left left' && alike agree right right'
  | call name arguments, call name' arguments' =>
    name == name' && allAlike agree arguments arguments'
  | _, _ => false

/-- Whether two lists hold like trees at like places. -/
def allAlike (agree : ν → ν → Bool) : List (Expr ν) → List (Expr ν) → Bool
  | [], [] => true
  | left :: lefts, right :: rights => alike agree left right && allAlike agree lefts rights
  | _, _ => false

end

/-- Trees are equal when they have the same shape and equal constants. -/
instance [BEq ν] : BEq (Expr ν) := ⟨alike (· == ·)⟩

end Expr

end Tangent
