import Tangent.Proofs.Expr.Vocabulary
import Tangent.Proofs.Number.Negation

/-!
# Normal forms

Two passes bring a tree of finite constants into normal form, where a pass changes nothing. The
first pass folds and drops whatever can be folded or dropped, but `0 - u` may become a negation
above another one that was rebuilt before. The second pass takes such pairs away. It makes no new
constant, because what stands below two negations is none, and so every other node stays as the
first pass left it.
-/

namespace Tangent

variable {ν : Type} [Arithmetic ν]

/-- All names and all finite numbers. -/
def Vocabulary.finiteConstants : Vocabulary ν where
  IsVariable _ := True
  IsConstant value := Arithmetic.isFinite value = true

namespace Expr

/-- Whether an operation has an operand that changes nothing or that settles the result alone. -/
def hasIdleOperand : BinaryOperator → Expr ν → Expr ν → Bool
  | .add, left, right | .sub, left, right => left.isWhole 0 || right.isWhole 0
  | .mul, left, right =>
    left.isWhole 0 || right.isWhole 0 || left.isWhole 1 || right.isWhole 1
  | .div, _, right => right.isWhole 1
  | .pow, _, right => right.isWhole 0 || right.isWhole 1

/-- Whether a tree has no finite value where nothing is known of variables. -/
def Unfoldable (tree : Expr ν) : Prop :=
  ∀ value, tree.evaluate Bindings.empty = .ok value → Arithmetic.isFinite value = false

/-- Normal form: what is left when nothing can be folded and nothing dropped. -/
structure IsNormal (tree : Expr ν) : Prop where
  constants : ∀ value, const value ∈ tree.subtrees → Arithmetic.isFinite value = true
  noNegatedConstant : ∀ value, neg (const value) ∉ tree.subtrees
  noNegatedNegation : ∀ operand, neg (neg operand) ∉ tree.subtrees
  /-- Operations and calls on nothing but constants have no finite value. -/
  unfoldable : ∀ part ∈ tree.subtrees, part.children ≠ [] →
    part.children.all isConstant = true → Unfoldable part
  /-- Other operations have no idle operand. -/
  noIdleOperand : ∀ operator left right, binary operator left right ∈ tree.subtrees →
    (left.isConstant && right.isConstant) = false → hasIdleOperand operator left right = false

/-- Whether nothing is left to be folded or dropped at the root of a tree. A negation may still
stand above another one. -/
def HasReducedRoot : Expr ν → Prop
  | const value => Arithmetic.isFinite value = true
  | var _ => True
  | neg operand => operand.isConstant = false
  | binary operator left right =>
    if left.isConstant && right.isConstant then Unfoldable (binary operator left right)
    else hasIdleOperand operator left right = false
  | call name arguments => arguments.all isConstant = true → Unfoldable (call name arguments)

/-- Whether a tree is something else than the negation of a negation. -/
def HasSingleSign (tree : Expr ν) : Prop :=
  ∀ operand, tree ≠ neg (neg operand)

/-- Nothing is left to be folded or dropped in a tree, but it may have negations of negations. -/
abbrev Reduced (tree : Expr ν) : Prop :=
  tree.Throughout HasReducedRoot

/-- A tree is reduced and has no negation of a negation. -/
structure Settled (tree : Expr ν) : Prop where
  reduced : Reduced tree
  singleSigns : tree.Throughout HasSingleSign

/-- What a pass makes of a reduced tree: a settled one, a constant only where the tree is that
constant, and the tree itself if it has no negation of a negation. -/
structure Unpairs (tree after : Expr ν) : Prop where
  settled : Settled after
  constant?_eq : after.constant? = tree.constant?
  eq_self : tree.Throughout HasSingleSign → after = tree

section Nodes

variable {tree other after operand left right newLeft newRight : Expr ν}
  {operator : BinaryOperator} {name : String} {arguments : List (Expr ν)}

/-- What a settled negation stands above is neither a constant nor a negation. -/
theorem settled_neg_iff :
    Settled (neg operand) ↔
      operand.isConstant = false ∧ (∀ inner, operand ≠ neg inner) ∧ Settled operand := by
  constructor
  · rintro ⟨reduced, singleSigns⟩
    obtain ⟨noConstant, operandReduced⟩ := throughout_neg.1 reduced
    obtain ⟨single, operandSigns⟩ := throughout_neg.1 singleSigns
    exact ⟨noConstant, fun inner same => single inner (by rw [same]), operandReduced,
      operandSigns⟩
  · rintro ⟨noConstant, noNegation, operandReduced, operandSigns⟩
    refine ⟨throughout_neg.2 ⟨noConstant, operandReduced⟩,
      throughout_neg.2 ⟨fun inner same => ?_, operandSigns⟩⟩
    cases same
    exact noNegation inner rfl

theorem settled_binary_iff :
    Settled (binary operator left right) ↔
      HasReducedRoot (binary operator left right) ∧ Settled left ∧ Settled right := by
  constructor
  · rintro ⟨reduced, singleSigns⟩
    obtain ⟨root, leftReduced, rightReduced⟩ := throughout_binary.1 reduced
    obtain ⟨_, leftSigns, rightSigns⟩ := throughout_binary.1 singleSigns
    exact ⟨root, ⟨leftReduced, leftSigns⟩, ⟨rightReduced, rightSigns⟩⟩
  · rintro ⟨root, ⟨leftReduced, leftSigns⟩, ⟨rightReduced, rightSigns⟩⟩
    exact ⟨throughout_binary.2 ⟨root, leftReduced, rightReduced⟩,
      throughout_binary.2 ⟨nofun, leftSigns, rightSigns⟩⟩

theorem settled_call_iff :
    Settled (call name arguments) ↔
      HasReducedRoot (call name arguments) ∧ ∀ argument ∈ arguments, Settled argument := by
  constructor
  · rintro ⟨reduced, singleSigns⟩
    obtain ⟨root, argumentsReduced⟩ := throughout_call.1 reduced
    obtain ⟨_, argumentSigns⟩ := throughout_call.1 singleSigns
    exact ⟨root, fun argument present =>
      ⟨argumentsReduced argument present, argumentSigns argument present⟩⟩
  · rintro ⟨root, each⟩
    exact ⟨throughout_call.2 ⟨root, fun argument present => (each argument present).reduced⟩,
      throughout_call.2 ⟨nofun, fun argument present => (each argument present).singleSigns⟩⟩

theorem Unpairs.isConstant_eq (unpairs : Unpairs tree after) :
    after.isConstant = tree.isConstant := by
  rw [isConstant, isConstant, unpairs.constant?_eq]

/-- A settled tree is in normal form. -/
theorem Settled.isNormal (settled : Settled tree) : IsNormal tree where
  constants value inside := settled.reduced _ inside
  noNegatedConstant value inside := Bool.noConfusion (settled.reduced _ inside)
  noNegatedNegation operand inside := settled.singleSigns _ inside operand rfl
  unfoldable part inside inner all := by
    have root := settled.reduced part inside
    cases part with
    | const value => exact absurd rfl inner
    | var name => exact absurd rfl inner
    | neg operand =>
      have noConstant : operand.isConstant = false := root
      simp [children, noConstant] at all
    | binary operator left right =>
      have both : (left.isConstant && right.isConstant) = true := by simpa [children] using all
      rwa [HasReducedRoot, if_pos both] at root
    | call name arguments => exact root all
  noIdleOperand operator left right inside notBoth := by
    have root := settled.reduced _ inside
    rwa [HasReducedRoot, notBoth, if_neg Bool.false_ne_true] at root

theorem isConstant_of_isWhole {number : Nat} (isWhole : tree.isWhole number = true) :
    tree.isConstant = true := by
  cases tree with
  | const value => rfl
  | _ => cases isWhole

/-- Whether an operand is idle depends on it only as a constant. -/
theorem hasIdleOperand_congr (leftSame : newLeft.constant? = left.constant?)
    (rightSame : newRight.constant? = right.constant?) :
    hasIdleOperand operator newLeft newRight = hasIdleOperand operator left right := by
  cases operator <;> simp only [hasIdleOperand, isWhole, isConstantOf, leftSame, rightSame]

/-- Without an idle operand an operation stays as it is. -/
theorem withoutNeutral_eq_binary (none : hasIdleOperand operator left right = false) :
    withoutNeutral operator left right = binary operator left right := by
  cases operator <;> simp_all [hasIdleOperand, withoutNeutral]

/-- A tree that is folded becomes a finite constant or has no finite value. -/
theorem folded_eq_ok (succeeded : folded tree = .ok after) :
    (∃ value, after = const value ∧ Arithmetic.isFinite value = true) ∨
      after = tree ∧ Unfoldable tree := by
  obtain ⟨value, known, returned⟩ := exists_of_bind_eq_ok succeeded
  cases finite : Arithmetic.isFinite value with
  | true =>
    rw [if_pos finite] at returned
    cases returned
    exact .inl ⟨value, rfl, finite⟩
  | false =>
    rw [finite, if_neg Bool.false_ne_true] at returned
    cases returned
    refine .inr ⟨rfl, fun again knownAgain => ?_⟩
    cases known.symm.trans knownAgain
    exact finite

/-- A tree without a finite value stays as it is when it is folded. -/
theorem eq_of_folded (unfoldable : Unfoldable tree) (succeeded : folded tree = .ok after) :
    after = tree := by
  obtain ⟨value, known, returned⟩ := exists_of_bind_eq_ok succeeded
  rw [unfoldable value known, if_neg Bool.false_ne_true] at returned
  cases returned
  rfl

end Nodes

section Roots

variable {property : Expr ν → Prop} {tree after operand left right : Expr ν}
  {operator : BinaryOperator}

/-- Whether a property is one of every node that a pass leaves behind. At operations and calls it is
no more than that nothing can be folded or dropped there; at constants and negations it may say
something else. -/
structure KeptByPasses (property : Expr ν → Prop) : Prop where
  finite {value : ν} (isFinite : Arithmetic.isFinite value = true) : property (const value)
  whole {number : Nat} (small : number ≤ 1) : property (const (Arithmetic.ofNat number))
  free (name : String) : property (var name)
  negation {operand : Expr ν} (noConstant : operand.isConstant = false) : property (neg operand)
  unfoldable {value : ν} (below : property (const value))
      (unfoldable : Unfoldable (neg (const value))) : property (neg (const value))
  operation {operator : BinaryOperator} {left right : Expr ν}
      (reduced : HasReducedRoot (binary operator left right)) :
      property (binary operator left right)
  application {name : String} {arguments : List (Expr ν)}
      (reduced : HasReducedRoot (call name arguments)) : property (call name arguments)

/-- A node is folded to a finite constant, or stays where it has no finite value. -/
theorem throughout_of_folded (kept : KeptByPasses property) (succeeded : folded tree = .ok after)
    (stays : Unfoldable tree → Throughout property tree) : Throughout property after := by
  rcases folded_eq_ok succeeded with ⟨value, rfl, finite⟩ | ⟨rfl, unfoldable⟩
  · exact throughout_const.2 (kept.finite finite)
  · exact stays unfoldable

theorem throughout_negated (kept : KeptByPasses property) (below : Throughout property operand)
    (noConstant : operand.isConstant = false) : Throughout property (negated operand) := by
  cases operand with
  | neg inner => exact (throughout_neg.1 below).2
  | _ => exact throughout_neg.2 ⟨kept.negation noConstant, below⟩

theorem throughout_withoutNeutral (kept : KeptByPasses property) (operator : BinaryOperator)
    (leftBelow : Throughout property left) (rightBelow : Throughout property right)
    (notBoth : (left.isConstant && right.isConstant) = false) :
    Throughout property (withoutNeutral operator left right) := by
  have stays (noneIdle : hasIdleOperand operator left right = false) :
      Throughout property (binary operator left right) := by
    refine throughout_binary.2 ⟨kept.operation ?_, leftBelow, rightBelow⟩
    rwa [HasReducedRoot, notBoth, if_neg Bool.false_ne_true]
  unfold withoutNeutral
  cases operator with
  | add =>
    dsimp only
    split
    · exact leftBelow
    · split
      · exact rightBelow
      · exact stays (by simp_all [hasIdleOperand])
  | sub =>
    dsimp only
    split
    · exact leftBelow
    · split
      · next zero =>
        -- The left operand is a constant, so the right one is none.
        have leftConstant := isConstant_of_isWhole zero
        rw [leftConstant, Bool.true_and] at notBoth
        exact throughout_neg.2 ⟨kept.negation notBoth, rightBelow⟩
      · exact stays (by simp_all [hasIdleOperand])
  | mul =>
    dsimp only
    split
    · exact throughout_const.2 (kept.whole (Nat.zero_le 1))
    · split
      · exact leftBelow
      · split
        · exact rightBelow
        · exact stays (by simp_all [hasIdleOperand])
  | div =>
    dsimp only
    split
    · exact leftBelow
    · exact stays (by simp_all [hasIdleOperand])
  | pow =>
    dsimp only
    split
    · exact throughout_const.2 (kept.whole (Nat.le_refl 1))
    · split
      · exact leftBelow
      · exact stays (by simp_all [hasIdleOperand])

/-- After a pass, every node has the properties that passes keep, if the constants of the tree have
them. -/
theorem throughout_of_pass (kept : KeptByPasses property)
    (constants : ∀ value, const value ∈ tree.subtrees → property (const value))
    (passed : pass tree = .ok after) : Throughout property after := by
  induction tree generalizing after with
  | const value =>
    cases passed
    exact throughout_const.2 (constants value (mem_subtrees_self _))
  | var name =>
    cases passed
    exact throughout_var.2 (kept.free name)
  | neg operand inductionHypothesis =>
    obtain ⟨rebuilt, operandPassed, finished⟩ := exists_of_bind_eq_ok passed
    have below := inductionHypothesis
      (fun value inside => constants value (List.mem_cons_of_mem _ inside)) operandPassed
    cases isConstant : rebuilt.isConstant with
    | true =>
      obtain ⟨value, rfl⟩ := isConstant_iff.1 isConstant
      rw [if_pos isConstant] at finished
      exact throughout_of_folded kept finished fun unfoldable =>
        throughout_neg.2 ⟨kept.unfoldable below.self unfoldable, below⟩
    | false =>
      rw [isConstant, if_neg Bool.false_ne_true] at finished
      cases finished
      exact throughout_negated kept below isConstant
  | binary operator left right leftHypothesis rightHypothesis =>
    obtain ⟨newLeft, newRight, leftPassed, rightPassed, finished⟩ := exists_operands_of_pass passed
    have leftBelow := leftHypothesis
      (fun value inside => constants value (by simp [subtrees, inside])) leftPassed
    have rightBelow := rightHypothesis
      (fun value inside => constants value (by simp [subtrees, inside])) rightPassed
    cases both : (newLeft.isConstant && newRight.isConstant) with
    | true =>
      rw [both, if_pos rfl] at finished
      refine throughout_of_folded kept finished fun unfoldable =>
        throughout_binary.2 ⟨kept.operation ?_, leftBelow, rightBelow⟩
      rwa [HasReducedRoot, if_pos both]
    | false =>
      rw [both, if_neg Bool.false_ne_true] at finished
      cases finished
      exact throughout_withoutNeutral kept operator leftBelow rightBelow both
  | call name arguments inductionHypothesis =>
    obtain ⟨rebuilt, argumentsPassed, finished⟩ := exists_of_bind_eq_ok passed
    have each : ∀ result ∈ rebuilt, Throughout property result := by
      intro result present
      obtain ⟨argument, inside, argumentPassed⟩ := exists_of_mem_passAll argumentsPassed present
      refine inductionHypothesis argument inside (fun value within => constants value ?_)
        argumentPassed
      simp only [subtrees, subtreesOfAll_eq_flatMap]
      exact List.mem_cons_of_mem _ (List.mem_flatMap.2 ⟨argument, inside, within⟩)
    cases all : rebuilt.all isConstant with
    | true =>
      rw [all, if_pos rfl] at finished
      exact throughout_of_folded kept finished fun unfoldable =>
        throughout_call.2 ⟨kept.application fun _ => unfoldable, each⟩
    | false =>
      rw [all, if_neg Bool.false_ne_true] at finished
      cases finished
      refine throughout_call.2 ⟨kept.application fun constants => ?_, each⟩
      rw [all] at constants
      cases constants

end Roots

section Passes

variable {operator : BinaryOperator} {name : String}
  {tree after operand left right newOperand newLeft newRight : Expr ν}
  {trees results : List (Expr ν)}

/-- Among finite constants, passes leave nothing to be folded or dropped: a negated constant is
finite, so it is folded. -/
theorem keptByPasses_hasReducedRoot [Arithmetic.KeepsFinite ν] :
    KeptByPasses (HasReducedRoot : Expr ν → Prop) where
  finite isFinite := isFinite
  whole small := Arithmetic.KeepsFinite.isFinite_ofNat small
  free _ := trivial
  negation noConstant := noConstant
  unfoldable {value} below unfoldable := by
    have finite : Arithmetic.isFinite (-value) = true := Arithmetic.KeepsFinite.isFinite_neg below
    rw [unfoldable (-value) rfl] at finite
    cases finite
  operation reduced := reduced
  application reduced := reduced

/-- The first pass over a tree of finite constants leaves nothing to be folded or dropped. -/
theorem reduced_of_pass [Arithmetic.KeepsFinite ν] (isOver : tree.Over .finiteConstants)
    (passed : pass tree = .ok after) : Reduced after :=
  throughout_of_pass keptByPasses_hasReducedRoot isOver.constants passed

/-- A pass that leaves each of some trees as it is leaves all of them so. -/
theorem eq_of_passAll (each : ∀ tree ∈ trees, ∀ after, pass tree = .ok after → after = tree)
    (passed : passAll trees = .ok results) : results = trees := by
  induction trees generalizing results with
  | nil => cases passed; rfl
  | cons tree rest inductionHypothesis =>
    obtain ⟨first, firstPassed, continued⟩ := exists_of_bind_eq_ok passed
    obtain ⟨others, othersPassed, returned⟩ := exists_of_bind_eq_ok continued
    cases returned
    obtain ⟨firstSame, restSame⟩ := List.forall_mem_cons.1 each
    rw [firstSame first firstPassed, inductionHypothesis restSame othersPassed]

/-- Constants are passed over. -/
theorem eq_of_passAll_constants (all : trees.all isConstant = true)
    (passed : passAll trees = .ok results) : results = trees := by
  refine eq_of_passAll (fun tree present after treePassed => ?_) passed
  obtain ⟨value, rfl⟩ := isConstant_iff.1 (List.all_eq_true.1 all tree present)
  exact (Except.ok.inj treePassed).symm

/-- A pass that keeps each of some trees a constant, or none, does so for all of them. -/
theorem all_isConstant_of_passAll
    (each : ∀ tree ∈ trees, ∀ after, pass tree = .ok after → after.isConstant = tree.isConstant)
    (passed : passAll trees = .ok results) :
    results.all isConstant = trees.all isConstant := by
  induction trees generalizing results with
  | nil => cases passed; rfl
  | cons tree rest inductionHypothesis =>
    obtain ⟨first, firstPassed, continued⟩ := exists_of_bind_eq_ok passed
    obtain ⟨others, othersPassed, returned⟩ := exists_of_bind_eq_ok continued
    cases returned
    obtain ⟨firstSame, restSame⟩ := List.forall_mem_cons.1 each
    rw [List.all_cons, List.all_cons, firstSame first firstPassed,
      inductionHypothesis restSame othersPassed]

/-- What a pass makes of a reduced negation. -/
theorem Unpairs.negation (noConstant : operand.isConstant = false)
    (unpairs : Unpairs operand newOperand)
    (finished : (if newOperand.isConstant then folded (neg newOperand)
      else .ok (negated newOperand)) = .ok after) : Unpairs (neg operand) after := by
  have stillNone : newOperand.isConstant = false := unpairs.isConstant_eq.trans noConstant
  rw [stillNone, if_neg Bool.false_ne_true] at finished
  cases finished
  cases newOperand with
  | neg inner =>
    obtain ⟨innerNone, _, innerSettled⟩ := settled_neg_iff.1 unpairs.settled
    have noValue : inner.constant? = none :=
      Option.not_isSome_iff_eq_none.1 (Bool.eq_false_iff.1 innerNone)
    refine ⟨innerSettled, noValue, fun single => ?_⟩
    obtain ⟨root, below⟩ := throughout_neg.1 single
    obtain rfl := unpairs.eq_self below
    exact absurd rfl (root inner)
  | _ =>
    refine ⟨settled_neg_iff.2 ⟨stillNone, nofun, unpairs.settled⟩, rfl, fun single => ?_⟩
    obtain rfl := unpairs.eq_self (throughout_neg.1 single).2
    rfl

/-- A constant has no signs to be taken away. -/
theorem Unpairs.eq_of_isConstant (unpairs : Unpairs tree after)
    (isConstant : tree.isConstant = true) : after = tree := by
  obtain ⟨value, rfl⟩ := isConstant_iff.1 isConstant
  exact unpairs.eq_self (throughout_const.2 nofun)

/-- What a pass makes of a reduced operation. -/
theorem Unpairs.operation (root : HasReducedRoot (binary operator left right))
    (leftUnpairs : Unpairs left newLeft) (rightUnpairs : Unpairs right newRight)
    (finished : (if newLeft.isConstant && newRight.isConstant
      then folded (binary operator newLeft newRight)
      else .ok (withoutNeutral operator newLeft newRight)) = .ok after) :
    Unpairs (binary operator left right) after := by
  have bothSame : (newLeft.isConstant && newRight.isConstant) =
      (left.isConstant && right.isConstant) := by
    rw [leftUnpairs.isConstant_eq, rightUnpairs.isConstant_eq]
  cases both : (left.isConstant && right.isConstant) with
  | true =>
    obtain ⟨leftConstant, rightConstant⟩ := Bool.and_eq_true_iff.1 both
    obtain rfl := leftUnpairs.eq_of_isConstant leftConstant
    obtain rfl := rightUnpairs.eq_of_isConstant rightConstant
    have unfoldable : Unfoldable (binary operator newLeft newRight) := by
      rwa [HasReducedRoot, if_pos both] at root
    rw [if_pos both] at finished
    obtain rfl := eq_of_folded unfoldable finished
    exact ⟨settled_binary_iff.2 ⟨root, leftUnpairs.settled, rightUnpairs.settled⟩, rfl,
      fun _ => rfl⟩
  | false =>
    rw [HasReducedRoot, both, if_neg Bool.false_ne_true] at root
    have none : hasIdleOperand operator newLeft newRight = false :=
      (hasIdleOperand_congr leftUnpairs.constant?_eq rightUnpairs.constant?_eq).trans root
    rw [bothSame, both, if_neg Bool.false_ne_true] at finished
    cases finished
    rw [withoutNeutral_eq_binary none]
    refine ⟨settled_binary_iff.2 ⟨?_, leftUnpairs.settled, rightUnpairs.settled⟩, rfl,
      fun single => ?_⟩
    · rwa [HasReducedRoot, bothSame, both, if_neg Bool.false_ne_true]
    · obtain ⟨_, leftSingle, rightSingle⟩ := throughout_binary.1 single
      rw [leftUnpairs.eq_self leftSingle, rightUnpairs.eq_self rightSingle]

/-- What a pass makes of a reduced call. -/
theorem Unpairs.application (root : HasReducedRoot (call name trees))
    (each : ∀ argument ∈ trees, ∀ result, pass argument = .ok result → Unpairs argument result)
    (passed : passAll trees = .ok results)
    (finished : (if results.all isConstant then folded (call name results)
      else .ok (call name results)) = .ok after) : Unpairs (call name trees) after := by
  have allSame : results.all isConstant = trees.all isConstant :=
    all_isConstant_of_passAll (fun argument present result argumentPassed =>
      (each argument present result argumentPassed).isConstant_eq) passed
  have settled : ∀ result ∈ results, Settled result := by
    intro result present
    obtain ⟨argument, inside, argumentPassed⟩ := exists_of_mem_passAll passed present
    exact (each argument inside result argumentPassed).settled
  cases all : trees.all isConstant with
  | true =>
    obtain rfl := eq_of_passAll_constants all passed
    rw [all, if_pos rfl] at finished
    obtain rfl := eq_of_folded (root all) finished
    exact ⟨settled_call_iff.2 ⟨root, settled⟩, rfl, fun _ => rfl⟩
  | false =>
    rw [allSame, all, if_neg Bool.false_ne_true] at finished
    cases finished
    refine ⟨settled_call_iff.2 ⟨fun constants => ?_, settled⟩, rfl, fun single => ?_⟩
    · rw [allSame, all] at constants
      cases constants
    · have argumentsSingle := (throughout_call.1 single).2
      rw [eq_of_passAll (fun argument present result argumentPassed =>
        (each argument present result argumentPassed).eq_self
          (argumentsSingle argument present)) passed]

/-- A pass over a reduced tree only takes away pairs of negations. -/
theorem unpairs_of_pass (reduced : Reduced tree) (passed : pass tree = .ok after) :
    Unpairs tree after := by
  induction tree generalizing after with
  | const value =>
    cases passed
    exact ⟨⟨reduced, throughout_const.2 nofun⟩, rfl, fun _ => rfl⟩
  | var name =>
    cases passed
    exact ⟨⟨reduced, throughout_var.2 nofun⟩, rfl, fun _ => rfl⟩
  | neg operand inductionHypothesis =>
    obtain ⟨noConstant, operandReduced⟩ := throughout_neg.1 reduced
    obtain ⟨newOperand, operandPassed, finished⟩ := exists_of_bind_eq_ok passed
    exact .negation noConstant (inductionHypothesis operandReduced operandPassed) finished
  | binary operator left right leftHypothesis rightHypothesis =>
    obtain ⟨root, leftReduced, rightReduced⟩ := throughout_binary.1 reduced
    obtain ⟨newLeft, newRight, leftPassed, rightPassed, finished⟩ := exists_operands_of_pass passed
    exact .operation root (leftHypothesis leftReduced leftPassed)
      (rightHypothesis rightReduced rightPassed) finished
  | call name arguments inductionHypothesis =>
    obtain ⟨root, each⟩ := throughout_call.1 reduced
    obtain ⟨results, argumentsPassed, finished⟩ := exists_of_bind_eq_ok passed
    refine .application root (fun argument present result argumentPassed => ?_) argumentsPassed
      finished
    exact inductionHypothesis argument present (each argument present) argumentPassed

end Passes

section Limit

variable {tree result : Expr ν}

/-- A pass that gives the tree back is seen to have changed nothing, whatever its constants are. -/
theorem unchanged_self (tree : Expr ν) : unchanged tree tree = true := by
  induction tree with
  | const value =>
    change sameConstant value value = true
    cases equal : value == value <;> simp [sameConstant, equal]
  | var name => simp [unchanged, alike]
  | neg operand inductionHypothesis => exact inductionHypothesis
  | binary operator left right leftHypothesis rightHypothesis =>
    simp only [unchanged] at leftHypothesis rightHypothesis ⊢
    simp [alike, leftHypothesis, rightHypothesis]
  | call name arguments inductionHypothesis =>
    have all : allAlike sameConstant arguments arguments = true := by
      clear name
      induction arguments with
      | nil => rfl
      | cons argument rest restHypothesis =>
        obtain ⟨first, inRest⟩ := List.forall_mem_cons.1 inductionHypothesis
        rw [allAlike, restHypothesis inRest, Bool.and_true]
        exact first
    simp [unchanged, alike, all]

/-- The simplifier stops by itself one pass after a tree that a pass leaves as it is. -/
theorem simplify_eq_of_passes {made limit : Nat} (reached : passes made tree = .ok result)
    (fixed : pass result = .ok result) (below : made < limit) :
    simplify limit tree = .ok ⟨result, true⟩ := by
  induction made generalizing tree limit with
  | zero =>
    cases reached
    obtain ⟨limit, rfl⟩ := Nat.exists_eq_succ_of_ne_zero (Nat.ne_of_gt below)
    simp [simplify, fixed, unchanged_self, bind, Except.bind, pure, Except.pure]
  | succ made inductionHypothesis =>
    obtain ⟨limit, rfl⟩ := Nat.exists_eq_succ_of_ne_zero (Nat.ne_of_gt (Nat.zero_lt_of_lt below))
    obtain ⟨next, passed, others⟩ := exists_of_bind_eq_ok reached
    rw [simplify, passed]
    by_cases same : unchanged next tree = true
    · obtain rfl := eq_of_unchanged passed same
      obtain rfl : next = result :=
        Except.ok.inj ((passes_of_pass_eq passed made).symm.trans others)
      simp [same, bind, Except.bind, pure, Except.pure]
    · have later := inductionHypothesis others (Nat.lt_of_succ_lt_succ below)
      simpa [same, bind, Except.bind] using later

/-- A tree of accepted calls and finite constants is settled after two passes. -/
theorem exists_settled [Arithmetic.KeepsFinite ν] (isOver : tree.Over .finiteConstants) :
    ∃ result, passes 2 tree = .ok result ∧ Settled result ∧ pass result = .ok result := by
  obtain ⟨first, firstPassed⟩ := exists_pass isOver.accepted
  have firstAccepted := callsAccepted_of_pass firstPassed isOver.accepted
  obtain ⟨second, secondPassed⟩ := exists_pass firstAccepted
  obtain ⟨third, thirdPassed⟩ := exists_pass (callsAccepted_of_pass secondPassed firstAccepted)
  have settled := (unpairs_of_pass (reduced_of_pass isOver firstPassed) secondPassed).settled
  obtain rfl := (unpairs_of_pass settled.reduced thirdPassed).eq_self settled.singleSigns
  have reached : passes 2 tree = .ok third :=
    (passes_succ firstPassed).trans (passes_succ secondPassed)
  exact ⟨third, reached, settled, thirdPassed⟩

/-- Two passes bring a tree of accepted calls and finite constants into normal form, and no further
pass changes it. So from a limit of three passes on the simplifier stops by itself and warns of
nothing, with a result that does not depend on the limit and that is its own simplification. -/
theorem simplify_settles [Arithmetic.KeepsFinite ν] (tree : Expr ν)
    (accepted : tree.CallsAccepted)
    (finite : ∀ value, const value ∈ tree.subtrees → Arithmetic.isFinite value = true) :
    ∃ result, passes 2 tree = .ok result ∧ pass result = .ok result ∧ IsNormal result ∧
      (∀ limit : Int, 3 ≤ limit → simplify limit.toNat tree = .ok ⟨result, true⟩ ∧
        Simplified.warning? limit ⟨result, true⟩ = none) ∧
      ∀ limit : Int, 1 ≤ limit → simplify limit.toNat result = .ok ⟨result, true⟩ := by
  obtain ⟨result, reached, settled, fixed⟩ := exists_settled ⟨accepted, fun _ _ => trivial, finite⟩
  refine ⟨result, reached, fixed, settled.isNormal, fun limit enough => ⟨?_, rfl⟩,
    fun limit positive => ?_⟩
  · exact simplify_eq_of_passes reached fixed (by omega)
  · have start : passes 0 result = .ok result := rfl
    exact simplify_eq_of_passes start fixed (by omega)

/-- The double negation that the first pass makes of `0 - -x` is gone after the second one, and a
quotient by zero stays. -/
theorem simplify_settles_after_hidden_negation :
    let tree : Expr Float := binary .sub (binary .mul (binary .sub (const 0) (neg (var "x")))
      (binary .sub (const 3) (const 2))) (binary .div (const 1) (const (-0.0)))
    let pole : Expr Float := binary .div (const 1) (const (-0.0))
    let result : Expr Float := binary .sub (var "x") pole
    tree.CallsAccepted ∧
      (∀ value, const value ∈ tree.subtrees → Arithmetic.isFinite value = true) ∧
      passes 1 tree = .ok (binary .sub (neg (neg (var "x"))) pole) ∧
      passes 2 tree = .ok result ∧ IsNormal result ∧ simplify 3 tree = .ok ⟨result, true⟩ := by
  intro tree pole result
  have accepted : tree.CallsAccepted := by decide
  have finite : ∀ value, const value ∈ tree.subtrees → Arithmetic.isFinite value = true := by
    intro value inside
    have plain : ∀ value ∈ [(0 : Float), 3, 2, 1, -0.0], Arithmetic.isFinite value = true := by
      decide +kernel
    refine plain value ?_
    simpa [tree, subtrees] using inside
  have known : passes 2 tree = .ok result := rfl
  obtain ⟨settled, reached, _, normal, limits, _⟩ := simplify_settles tree accepted finite
  obtain rfl : result = settled := Except.ok.inj (known.symm.trans reached)
  exact ⟨accepted, finite, rfl, known, normal, (limits 3 (by decide)).1⟩

end Limit

end Expr

end Tangent
