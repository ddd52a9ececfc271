import Tangent.Proofs.Expr.NormalForm

/-!
# Shrinking

A pass never makes a tree larger: it has no more nodes afterwards, lies no deeper and has no other
variables, and it has fewer nodes unless it is the same tree. So the simplifier stops nowhere but at
a tree that a pass leaves as it is, and it comes to stop there within as many passes as the tree has
nodes. None of this depends on what the operations of numbers do.
-/

namespace Tangent.Expr

variable {ν : Type}

/-- A tree is no larger than another one and has no other variables. -/
structure NoLarger (after tree : Expr ν) : Prop where
  count_le : after.count ≤ tree.count
  depth_le : after.depth ≤ tree.depth
  names_subset : after.names ⊆ tree.names

namespace NoLarger

theorem refl (tree : Expr ν) : NoLarger tree tree :=
  ⟨Nat.le_refl _, Nat.le_refl _, List.Subset.refl _⟩

theorem trans {last middle first : Expr ν} (later : NoLarger last middle)
    (sooner : NoLarger middle first) : NoLarger last first where
  count_le := Nat.le_trans later.count_le sooner.count_le
  depth_le := Nat.le_trans later.depth_le sooner.depth_le
  names_subset := List.Subset.trans later.names_subset sooner.names_subset

end NoLarger

/-- No tree is without depth. -/
theorem depth_pos (tree : Expr ν) : 0 < tree.depth := by
  cases tree <;> simp [depth]

theorem depth_le_greatestDepth {tree : Expr ν} {trees : List (Expr ν)} (present : tree ∈ trees) :
    tree.depth ≤ greatestDepth trees :=
  greatestDepth_le_iff.1 (Nat.le_refl _) tree present

variable [Arithmetic ν] {tree after : Expr ν}

/-- A reduction leads no deeper. -/
theorem ReducesTo.depth_le (reduces : ReducesTo tree after) : after.depth ≤ tree.depth := by
  cases reduces with
  | refl => exact Nat.le_refl _
  | value => exact tree.depth_pos
  | negatedTwice operand => simp only [depth]; omega
  | left => simp only [depth]; omega
  | right => simp only [depth]; omega
  | negatedRight => simp only [depth]; omega
  | whole => exact depth_pos _

/-- A pass makes no tree deeper. -/
theorem depth_le_of_pass (passed : pass tree = .ok after) : after.depth ≤ tree.depth := by
  induction tree generalizing after with
  | const value => exact Except.ok.inj passed ▸ Nat.le_refl _
  | var name => exact Except.ok.inj passed ▸ Nat.le_refl _
  | neg operand inductionHypothesis =>
    obtain ⟨rebuilt, operandPassed, reduces⟩ := exists_of_pass_neg passed
    have operandBound := inductionHypothesis operandPassed
    refine Nat.le_trans reduces.depth_le ?_
    simp only [depth]
    omega
  | binary operator left right leftHypothesis rightHypothesis =>
    obtain ⟨newLeft, newRight, leftPassed, rightPassed, reduces⟩ := exists_of_pass_binary passed
    have leftBound := leftHypothesis leftPassed
    have rightBound := rightHypothesis rightPassed
    refine Nat.le_trans reduces.depth_le ?_
    simp only [depth]
    omega
  | call name arguments inductionHypothesis =>
    obtain ⟨rebuilt, argumentsPassed, reduces⟩ := exists_of_pass_call passed
    refine Nat.le_trans reduces.depth_le ?_
    simp only [depth, Nat.add_le_add_iff_right, greatestDepth_le_iff]
    intro result present
    obtain ⟨argument, inside, argumentPassed⟩ := exists_of_mem_passAll argumentsPassed present
    exact Nat.le_trans (inductionHypothesis argument inside argumentPassed)
      (depth_le_greatestDepth inside)

/-- A pass over a tree of accepted calls makes it no larger: the result is over the variables of the
tree. -/
theorem noLarger_of_pass (accepted : tree.CallsAccepted) (passed : pass tree = .ok after) :
    NoLarger after tree where
  count_le := by
    rcases pass_eq_or_count_lt tree passed with rfl | smaller
    · exact Nat.le_refl _
    · exact Nat.le_of_lt smaller
  depth_le := depth_le_of_pass passed
  names_subset := by
    let vocabulary : Vocabulary ν := ⟨(· ∈ tree.names), fun _ => True⟩
    have isOver : tree.Over vocabulary := ⟨accepted, fun _ present => present, fun _ _ => trivial⟩
    exact (pass_over (fun _ _ => trivial) (fun _ _ => trivial) passed isOver).names

/-- However many passes are made, they make a tree of accepted calls no larger. -/
theorem exists_passes_noLarger (accepted : tree.CallsAccepted) (number : Nat) :
    ∃ result, passes number tree = .ok result ∧ NoLarger result tree := by
  induction number generalizing tree with
  | zero => exact ⟨tree, rfl, .refl tree⟩
  | succ number inductionHypothesis =>
    obtain ⟨next, passed⟩ := exists_pass accepted
    obtain ⟨result, reached, noLarger⟩ :=
      inductionHypothesis (callsAccepted_of_pass passed accepted)
    exact ⟨result, (passes_succ passed).trans reached,
      noLarger.trans (noLarger_of_pass accepted passed)⟩

/-- A tree is fixed before as many passes are made as it has nodes, since every pass before takes a
node away. -/
theorem exists_fixed (tree : Expr ν) (accepted : tree.CallsAccepted) :
    ∃ made result, made < tree.count ∧ passes made tree = .ok result ∧
      pass result = .ok result := by
  obtain ⟨next, passed⟩ := exists_pass accepted
  rcases pass_eq_or_count_lt tree passed with rfl | smaller
  · exact ⟨0, next, next.count_pos, rfl, passed⟩
  · obtain ⟨made, result, few, reached, fixed⟩ :=
      exists_fixed next (callsAccepted_of_pass passed accepted)
    exact ⟨made + 1, result, by omega, (passes_succ passed).trans reached, fixed⟩
termination_by tree.count

/-- Where the simplifier stops by itself, a pass changes nothing. -/
theorem pass_eq_of_settled {limit : Nat} {simplified : Simplified ν}
    (succeeded : simplify limit tree = .ok simplified) (settled : simplified.settled = true) :
    pass simplified.tree = .ok simplified.tree := by
  induction limit generalizing tree with
  | zero =>
    cases succeeded
    cases settled
  | succ limit inductionHypothesis =>
    obtain ⟨next, passed, continued⟩ := exists_of_bind_eq_ok succeeded
    split at continued
    · next same =>
      cases continued
      obtain rfl := eq_of_unchanged passed same
      exact passed
    · exact inductionHypothesis continued

/-- A pass that changes a tree of accepted calls takes nodes away and leads no deeper, and what the
simplifier sees as unchanged is the same tree, down to the signs of zeros. So however many passes
it may make, it makes no tree larger and brings in no variable, and it stops by itself only where a
pass changes nothing. With as many passes as the tree has nodes it always does so, warns of nothing,
and has a result that is its own simplification. -/
theorem simplify_shrinks (tree : Expr ν) (accepted : tree.CallsAccepted) :
    (∃ after, pass tree = .ok after ∧
      (after = tree ∨ after.count < tree.count ∧ after.depth ≤ tree.depth) ∧
      (unchanged after tree = true ↔ after = tree)) ∧
    (∀ limit : Int, ∃ simplified, simplify limit.toNat tree = .ok simplified ∧
      simplified.tree.count ≤ tree.count ∧ simplified.tree.depth ≤ tree.depth ∧
      simplified.tree.names ⊆ tree.names ∧
      (simplified.settled = true → pass simplified.tree = .ok simplified.tree)) ∧
    ∀ limit : Int, tree.count ≤ limit → ∃ result,
      simplify limit.toNat tree = .ok ⟨result, true⟩ ∧
      Simplified.warning? limit ⟨result, true⟩ = none ∧
      simplify limit.toNat result = .ok ⟨result, true⟩ := by
  refine ⟨?_, fun limit => ?_, fun limit enough => ?_⟩
  · obtain ⟨after, passed⟩ := exists_pass accepted
    refine ⟨after, passed, ?_, eq_of_unchanged passed, ?_⟩
    · rcases pass_eq_or_count_lt tree passed with same | smaller
      · exact .inl same
      · exact .inr ⟨smaller, depth_le_of_pass passed⟩
    · rintro rfl
      exact unchanged_self after
  · obtain ⟨result, reached, noLarger⟩ := exists_passes_noLarger accepted limit.toNat
    rw [← tree_simplify] at reached
    obtain ⟨simplified, succeeded, rfl⟩ := map_eq_ok_iff.1 reached
    exact ⟨simplified, succeeded, noLarger.count_le, noLarger.depth_le, noLarger.names_subset,
      pass_eq_of_settled succeeded⟩
  · obtain ⟨made, result, few, reached, fixed⟩ := exists_fixed tree accepted
    have start : passes 0 result = .ok result := rfl
    exact ⟨result, simplify_eq_of_passes reached fixed (by omega), rfl,
      simplify_eq_of_passes start fixed (by omega)⟩

/-- Two passes change a tree that hides an infinity behind two signs. The zero keeps its sign, and
with fewer passes than nodes the simplifier stops at the same tree. -/
theorem simplify_shrinks_to_hidden_infinity :
    let hidden : Expr Float := binary .sub (const (-0.0)) (neg (const (1 / 0)))
    let tree : Expr Float := binary .mul hidden (binary .div (const (-0.0)) (var "x"))
    let result : Expr Float :=
      binary .mul (const (1 / 0)) (binary .div (const (-0.0)) (var "x"))
    tree.CallsAccepted ∧ tree.count = 8 ∧ result.count = 5 ∧
      passes 1 tree =
        .ok (binary .mul (neg (neg (const (1 / 0)))) (binary .div (const (-0.0)) (var "x"))) ∧
      simplify 8 tree = .ok ⟨result, true⟩ ∧ simplify 3 tree = .ok ⟨result, true⟩ := by
  intro hidden tree result
  have accepted : tree.CallsAccepted := by decide
  obtain ⟨_, _, limits⟩ := simplify_shrinks tree accepted
  obtain ⟨settled, stops, _⟩ := limits 8 (by decide)
  have known : simplify 8 tree = .ok ⟨result, true⟩ := rfl
  obtain ⟨rfl, _⟩ := Simplified.mk.inj (Except.ok.inj (known.symm.trans stops))
  exact ⟨accepted, rfl, rfl, rfl, stops, rfl⟩

end Tangent.Expr
