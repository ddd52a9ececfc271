import Mathlib.Data.List.Nodup
import Tangent.Number.Binary64
import Tangent.Proofs.Expr.Offenders
import Tangent.Proofs.Expr.Vocabulary

/-!
# Dependence on a variable

Whether a variable occurs in a tree is asked of the names that a walk over the tree meets. The walk
meets every variable and nothing else, so a tree in which a name does not occur has the same value,
or the same fault, whatever the name is bound to. Neither the rules of calculus nor the simplifier
bring in variables, and so the same holds of derivatives and of simplified trees. Conversely, a tree
that can be evaluated has no value while one of its variables has none.
-/

namespace Tangent

variable {ν : Type}

/-- All names but one, and all numbers. -/
def Vocabulary.without (name : String) : Vocabulary ν where
  IsVariable other := other ≠ name
  IsConstant _ := True

theorem Vocabulary.hasWholes_without [Arithmetic ν] (name : String) :
    (without name : Vocabulary ν).HasWholes :=
  fun _ _ => trivial

theorem Vocabulary.hasFinite_without [Arithmetic ν] (name : String) :
    (without name : Vocabulary ν).HasFinite :=
  fun _ _ => trivial

namespace Expr

variable {name : String} {tree : Expr ν} {met : List String} {stack : List (Expr ν)}

/-- No name is noted twice. -/
theorem nodup_noted (distinct : met.Nodup) (tree : Expr ν) : (noted met tree).Nodup := by
  cases tree with
  | var name => exact distinct.insert
  | _ => exact distinct

/-- No name is met twice. -/
theorem nodup_visit (distinct : met.Nodup) : (visit met stack).Nodup := by
  fun_induction visit met stack with
  | case1 met => exact distinct
  | case2 met tree stack inductionHypothesis =>
    exact inductionHypothesis (nodup_noted distinct tree)

theorem nodup_freeVariables (tree : Expr ν) : tree.freeVariables.Nodup :=
  nodup_visit List.nodup_nil

/-- A tree of accepted calls in which a name does not occur. -/
theorem over_without_iff :
    tree.Over (.without name) ↔ tree.CallsAccepted ∧ name ∉ tree.names := by
  constructor
  · intro isOver
    exact ⟨isOver.accepted, fun inside => isOver.names name inside rfl⟩
  · rintro ⟨accepted, absent⟩
    exact ⟨accepted, fun other inside same => absent (same ▸ inside), fun _ _ => trivial⟩

variable [Arithmetic ν]

/-- The value of a tree, or the fault in place of one, is the same under bindings that differ only
in what a name is bound to, or in whether it is bound at all. -/
structure Ignores (name : String) (tree : Expr ν) : Prop where
  evaluate : ∀ bindings others : Bindings ν, (∀ other ≠ name, bindings other = others other) →
    tree.evaluate bindings = tree.evaluate others
  evaluateSeries : ∀ bindings others : Bindings (Series ν),
    (∀ other ≠ name, bindings other = others other) →
      tree.evaluateSeries bindings = tree.evaluateSeries others

/-- A tree ignores the names that do not occur in it. -/
theorem ignores_of_notMem (absent : name ∉ tree.names) : tree.Ignores name := by
  have differs : ∀ other ∈ tree.names, other ≠ name :=
    fun other inside same => absent (same ▸ inside)
  constructor
  · intro bindings others agree
    exact evaluateIn_congr fun other inside => agree other (differs other inside)
  · intro bindings others agree
    exact evaluateIn_congr fun other inside => agree other (differs other inside)

/-- A tree of accepted calls has no value while one of its variables has none. -/
theorem exists_fault_of_unbound {bindings : Bindings ν} (accepted : tree.CallsAccepted)
    (inside : name ∈ tree.names) (unbound : bindings name = none) :
    ∃ fault, tree.evaluate bindings = .error fault := by
  have counted : tree.Throughout fun part => part.hasAcceptedCount = true := by
    intro part present
    have root := accepted part present
    cases part with
    | call called arguments =>
      obtain ⟨function, registered, takes⟩ := (Option.any_eq_true _ _).1 root
      simpa [hasAcceptedCount, registered] using takes
    | _ => rfl
  have answers : tree.Answers (fun other => (bindings other).isSome) (tree.evaluate bindings) :=
    answers_of_respects Interpretation.respects_presence (fun _ _ _ => trivial) counted
  have offends : (tree.subtrees.findSome?
      (offence? fun other => (bindings other).isSome)).isSome = true :=
    List.findSome?_isSome_iff.2
      ⟨var name, var_mem_subtrees_iff.2 inside, by simp [offence?, unbound]⟩
  obtain ⟨fault, found⟩ := Option.isSome_iff_exists.1 offends
  exact ⟨fault, (answers.first fault).2 found⟩

/-- A tree of accepted calls ignores no name that occurs in it: it has a value where all names are
bound, and none where that name is not. -/
theorem notMem_of_ignores (accepted : tree.CallsAccepted) (ignores : tree.Ignores name) :
    name ∉ tree.names := by
  intro inside
  let everywhere : Bindings ν := fun _ => some (Arithmetic.ofNat 0)
  let elsewhere : Bindings ν := fun other => if other = name then none else everywhere other
  obtain ⟨value, known⟩ : ∃ value, tree.evaluate everywhere = .ok value :=
    exists_evaluate (fun _ _ => ⟨_, rfl⟩) accepted
  obtain ⟨fault, failed⟩ : ∃ fault, tree.evaluate elsewhere = .error fault :=
    exists_fault_of_unbound accepted inside (if_pos rfl)
  have same : tree.evaluate everywhere = tree.evaluate elsewhere :=
    ignores.evaluate _ _ fun other differs => (if_neg differs).symm
  rw [known, failed] at same
  cases same

/-- Simplifying a tree of accepted calls brings in no name. -/
theorem exists_simplify_ignores (accepted : tree.CallsAccepted) (absent : name ∉ tree.names)
    (limit : Nat) :
    ∃ simplified, tree.simplify limit = .ok simplified ∧ simplified.tree.Ignores name := by
  obtain ⟨simplified, succeeded, isOver⟩ :=
    exists_simplify_over (Vocabulary.hasWholes_without name) (Vocabulary.hasFinite_without name)
      (over_without_iff.2 ⟨accepted, absent⟩) limit
  exact ⟨simplified, succeeded, ignores_of_notMem (over_without_iff.1 isOver).2⟩

/-- Differentiating a tree of accepted calls brings in no name. -/
theorem exists_derivative_ignores (accepted : tree.CallsAccepted) (absent : name ∉ tree.names)
    (variableName : String) :
    ∃ rate, tree.derivative variableName = .ok rate ∧ rate.Ignores name := by
  obtain ⟨rate, known, isOver⟩ :=
    exists_derivative_over variableName (Vocabulary.hasWholes_without name)
      (over_without_iff.2 ⟨accepted, absent⟩)
  exact ⟨rate, known, ignores_of_notMem (over_without_iff.1 isOver).2⟩

/-- The test for a variable is sound and complete. The walk over a tree meets the names of its
variables and no others, each once, and the test asks for one of them. Where it denies a name, the
tree ignores it; and if calls are accepted, so do the simplified tree, whatever the limit, and the
derivatives with respect to all variables. No other name is ignored by such a tree. -/
theorem dependsOn_sound_complete (tree : Expr ν) (name : String) :
    (tree.freeVariables.Nodup ∧
      ∀ other, other ∈ tree.freeVariables ↔ var other ∈ tree.subtrees) ∧
    (tree.dependsOn name = true ↔ var name ∈ tree.subtrees) ∧
    (tree.dependsOn name = false → tree.Ignores name) ∧
    (tree.CallsAccepted →
      (tree.dependsOn name = false →
        (∀ limit, ∃ simplified, tree.simplify limit = .ok simplified ∧
          simplified.tree.Ignores name) ∧
        ∀ variableName, ∃ rate, tree.derivative variableName = .ok rate ∧ rate.Ignores name) ∧
      (tree.Ignores name → tree.dependsOn name = false)) := by
  refine ⟨⟨nodup_freeVariables tree, fun other => ?_⟩, ?_, fun denied => ?_,
    fun accepted => ⟨fun denied => ?_, fun ignores => ?_⟩⟩
  · exact mem_freeVariables.trans var_mem_subtrees_iff.symm
  · exact dependsOn_iff.trans var_mem_subtrees_iff.symm
  · exact ignores_of_notMem (dependsOn_eq_false_iff.1 denied)
  · have absent := dependsOn_eq_false_iff.1 denied
    exact ⟨exists_simplify_ignores accepted absent, exists_derivative_ignores accepted absent⟩
  · exact dependsOn_eq_false_iff.2 (notMem_of_ignores accepted ignores)

/-- A power with its variable in both operands does not ask for `y`, bound or not, but it does ask
for `t`, which only stands beside a zero. -/
theorem dependsOn_sound_complete_of_power :
    let tree : Expr Float :=
      binary .pow (var "x") (call "log" [var "x", binary .mul (const 0) (var "t")])
    let bindings : Bindings Float := fun asked => if asked = "y" then some 1 else some 2
    let others : Bindings Float := fun asked => if asked = "y" then none else some 2
    tree.dependsOn "y" = false ∧ tree.CallsAccepted ∧
      (∀ other ≠ "y", bindings other = others other) ∧
      tree.evaluate bindings = tree.evaluate others ∧
      (∃ simplified, tree.simplify 64 = .ok simplified ∧ simplified.tree.Ignores "y") ∧
      (∃ rate, tree.derivative "x" = .ok rate ∧ rate.Ignores "y") ∧
      tree.dependsOn "t" = true ∧ ¬tree.Ignores "t" := by
  intro tree bindings others
  have denied : tree.dependsOn "y" = false := by decide +kernel
  have asked : tree.dependsOn "t" = true := by decide +kernel
  have accepted : tree.CallsAccepted := by decide
  have agree : ∀ other ≠ "y", bindings other = others other :=
    fun other differs => (if_neg differs).trans (if_neg differs).symm
  obtain ⟨_, _, ignored, transformed⟩ := dependsOn_sound_complete tree "y"
  obtain ⟨simplified, derivative⟩ := (transformed accepted).1 denied
  have noticed : ¬tree.Ignores "t" := by
    intro ignores
    obtain ⟨_, _, _, converse⟩ := dependsOn_sound_complete tree "t"
    cases asked.symm.trans ((converse accepted).2 ignores)
  exact ⟨denied, accepted, agree, (ignored denied).evaluate bindings others agree, simplified 64,
    derivative "x", asked, noticed⟩

end Expr

end Tangent
