import Tangent.Proofs.Expr.RoundTrip
import Tangent.Proofs.Session.Closure

/-!
# Simplified formulas are read back

A tree that was written and read back differs from the tree only where a constant has a sign: the
sign comes back as a negation. The first pass of the simplifier folds each such negation to the
constant it was written from, and a zero gets its sign back too. So whoever simplifies cannot tell
the two trees apart, and the text of a derivative that simplification leaves as it is stands for
exactly that derivative.
-/

namespace Tangent

variable {ν : Type} [Number ν]

/-- What is written as a number and read back up to its sign: everything but the undefined numbers
and the negative infinity, whose negation is not folded. -/
def Number.IsRestored (value : ν) : Prop :=
  isUndefined value = false ∧ Scalar.extended value ≠ .infinite true

/-- The variables of a dialect, and the constants that folding restores. -/
def Vocabulary.restored (dialect : Dialect ν) : Vocabulary ν where
  IsVariable name := dialect.isVariable name = true
  IsConstant := Number.IsRestored

namespace Number

section Coherent

variable [Coherent ν] {value : ν}

/-- What is finite is restored. -/
theorem isRestored_of_isFinite (finite : Arithmetic.isFinite value = true) : IsRestored value := by
  refine ⟨isUndefined_eq_false finite, fun infinite => ?_⟩
  rw [Coherent.isFinite_eq, infinite] at finite
  cases finite

/-- What has no sign is restored, if it stands for something. -/
theorem isRestored_of_unsigned (defined : isUndefined value = false)
    (unsigned : isNegative value = false) : IsRestored value := by
  refine ⟨defined, fun infinite => ?_⟩
  rw [Coherent.isNegative_infinite value true infinite] at unsigned
  cases unsigned

/-- What has a sign and is restored is finite. -/
theorem IsRestored.isFinite (restored : IsRestored value) (negative : isNegative value = true) :
    Arithmetic.isFinite value = true := by
  rw [Coherent.isFinite_eq]
  cases sort : (Scalar.extended value) with
  | finite => rfl
  | undefined => exact absurd restored.1 (by rw [isUndefined_iff.2 sort]; decide)
  | infinite sign =>
    rw [Coherent.isNegative_infinite value sign sort] at negative
    exact absurd (negative ▸ sort) restored.2

end Coherent

end Number

namespace Vocabulary

variable [Number.Coherent ν] (dialect : Dialect ν)

theorem hasFinite_restored : (restored dialect).HasFinite :=
  fun _ => Number.isRestored_of_isFinite

theorem hasWholes_restored [Number.Lawful ν] : (restored dialect).HasWholes :=
  fun _ small => Number.isRestored_of_isFinite (Number.isFinite_ofNat small)

end Vocabulary

namespace Expr

/-- Folding restores the sign of a constant. -/
theorem pass_spelled_const [Number.Coherent ν] {value : ν} (restored : Number.IsRestored value) :
    pass (const value).spelled = .ok (const value) := by
  rw [spelled_const, restored.1, if_neg Bool.false_ne_true]
  split
  · next negative =>
    have finite := restored.isFinite negative
    have back : - -value = value := Number.Coherent.neg_neg value finite
    calc pass (neg (const (-value)))
        = .ok (if Arithmetic.isFinite (- -value) then const (- -value)
            else neg (const (-value))) := rfl
      _ = .ok (const value) := by rw [back, if_pos finite]
  · rfl

/-- Trees that pass as they are spelled pass together as they are spelled. -/
theorem passAll_spelled {trees : List (Expr ν)}
    (each : ∀ tree ∈ trees, pass tree.spelled = pass tree) :
    passAll (trees.map spelled) = passAll trees := by
  induction trees with
  | nil => rfl
  | cons tree rest inductionHypothesis =>
    obtain ⟨first, inRest⟩ := List.forall_mem_cons.1 each
    rw [List.map_cons, passAll, passAll, first, inductionHypothesis inRest]

variable [Number.Coherent ν]

/-- A pass cannot tell a tree from its spelling. -/
theorem pass_spelled {dialect : Dialect ν} {tree : Expr ν}
    (isOver : tree.Over (.restored dialect)) : pass tree.spelled = pass tree := by
  induction tree with
  | const value => exact pass_spelled_const (over_const.1 isOver)
  | var name => rfl
  | neg operand inductionHypothesis =>
    rw [spelled_neg, pass, pass, inductionHypothesis (over_neg.1 isOver)]
  | binary operator left right leftHypothesis rightHypothesis =>
    obtain ⟨leftOver, rightOver⟩ := over_binary.1 isOver
    rw [spelled_binary, pass, pass, leftHypothesis leftOver, rightHypothesis rightOver]
  | call name arguments inductionHypothesis =>
    have each := (over_call.1 isOver).2
    rw [spelled_call, pass, pass, passAll_spelled fun argument present =>
      inductionHypothesis argument present (each argument present)]

/-- As soon as one pass is made, simplification cannot tell a tree from its spelling. -/
theorem simplify_spelled {dialect : Dialect ν} {tree : Expr ν}
    (isOver : tree.Over (.restored dialect)) {number : Nat} (positive : 0 < number) :
    Simplified.tree <$> simplify number tree.spelled =
      Simplified.tree <$> simplify number tree := by
  obtain ⟨number, rfl⟩ := Nat.exists_eq_succ_of_ne_zero (Nat.pos_iff_ne_zero.1 positive)
  rw [tree_simplify, tree_simplify, passes, passes, pass_spelled isOver]

open Token

variable [Number.Lawful ν]

/-- The text of a tree whose constants are restored is a phrase of the grammar, and where the limit
covers its nesting, what is read is simplified as the tree is. -/
theorem simplify_read_text {dialect : Dialect ν} {tree : Expr ν} {number : Nat}
    (isOver : tree.Over (.restored dialect)) (positive : 0 < number)
    (reads : ∀ value, const value ∈ tree.subtrees → Number.ReadsBack value) :
    ∃ tokens nesting, tokenize tree.text = .ok tokens ∧
      Derives dialect .sum (formula tokens) tree.spelled nesting ∧
      ((nesting : Int) ≤ dialect.maxNesting → ∃ reread, read dialect tree.text = .ok reread ∧
        Simplified.tree <$> simplify number reread =
          Simplified.tree <$> simplify number tree) := by
  have wellFormed : tree.WellFormed dialect := wellFormed_iff.2 ⟨isOver.accepted, isOver.names⟩
  obtain ⟨tokens, nesting, tokenized, derived, covered⟩ := read_text wellFormed reads
  exact ⟨tokens, nesting, tokenized, derived, fun within =>
    ⟨tree.spelled, covered.2 within, simplify_spelled isOver positive⟩⟩

/-- The trees of a session that was read in the standard dialect have constants that are restored,
whatever the limit on nesting is. -/
theorem over_restored_of_built {settings : Settings ν} {entered asked : Option String}
    {session : Session ν} {other : Int} (standard : settings.dialect = .within other)
    (built : Session.Built settings entered asked session) (limit : Int) :
    ∀ tree ∈ session.trees, tree.Over (.restored (.within limit)) := by
  have decimal (decimal : Decimal) : Number.IsRestored (Arithmetic.ofDecimal decimal : ν) :=
    Number.isRestored_of_unsigned (Number.isUndefined_ofDecimal decimal)
      (Number.Lawful.isNegative_ofDecimal decimal)
  have formulaRead : read (.within other) session.text = .ok session.formula :=
    standard ▸ built.formula
  refine built.trees_over (Vocabulary.hasWholes_restored _) (Vocabulary.hasFinite_restored _)
    (over_of_read formulaRead (fun name value known => ?_) (fun _ free => free)
      fun tokens tokenized value position present => ?_)
  · obtain ⟨digits, rfl⟩ := decimals_within other name value known
    exact decimal digits
  · obtain ⟨digits, rfl⟩ := exists_decimal_of_literal tokenized present
    exact decimal digits

/-- Writing a tree and reading it back is invisible to the simplifier, for well formed trees without
undefined constants and negative infinities: the text is a phrase of the grammar, and where the
limit covers its nesting, one pass or more make the same of what is read as of the tree. So the text
of the derivative of a session, read back and simplified, gives the simplified derivative itself, if
that is left as it is. -/
theorem simplify_reread (limit : Int) {number : Nat} (positive : 0 < number) :
    (∀ tree : Expr ν, tree.WellFormed (.within limit) →
      (∀ value, const value ∈ tree.subtrees → Number.IsRestored value ∧ Number.ReadsBack value) →
        ∃ tokens nesting, tokenize tree.text = .ok tokens ∧
          Derives (.within limit) .sum (formula tokens) tree.spelled nesting ∧
          ((nesting : Int) ≤ limit → ∃ reread simplified,
            read (.within limit) tree.text = .ok reread ∧
            Simplified.tree <$> simplify number reread = .ok simplified ∧
            Simplified.tree <$> simplify number tree = .ok simplified)) ∧
    ∀ (settings : Settings ν) (other : Int) (entered asked : Option String) (session : Session ν),
      settings.dialect = .within other → Session.build settings entered asked = .ok session →
      Simplified.tree <$> simplify number session.simplified = .ok session.simplified →
      (∀ value, const value ∈ session.simplified.subtrees → Number.ReadsBack value) →
        ∃ tokens nesting, tokenize session.derivativeText = .ok tokens ∧
          Derives (.within limit) .sum (formula tokens) session.simplified.spelled nesting ∧
          ((nesting : Int) ≤ limit → ∃ reread,
            read (.within limit) session.derivativeText = .ok reread ∧
            Simplified.tree <$> simplify number reread = .ok session.simplified) := by
  constructor
  · intro tree wellFormed constants
    obtain ⟨accepted, free⟩ := wellFormed_iff.1 wellFormed
    have isOver : tree.Over (.restored (.within limit)) :=
      ⟨accepted, free, fun value inside => (constants value inside).1⟩
    obtain ⟨tokens, nesting, tokenized, derived, covered⟩ :=
      simplify_read_text isOver positive fun value inside => (constants value inside).2
    refine ⟨tokens, nesting, tokenized, derived, fun within => ?_⟩
    obtain ⟨reread, readBack, same⟩ := covered within
    obtain ⟨simplified, succeeded, _⟩ := exists_simplify_over (Vocabulary.hasWholes_restored _)
      (Vocabulary.hasFinite_restored _) isOver number
    have finished : Simplified.tree <$> simplify number tree = .ok simplified.tree :=
      map_eq_ok_iff.2 ⟨simplified, succeeded, rfl⟩
    exact ⟨reread, simplified.tree, readBack, same.trans finished, finished⟩
  · intro settings other entered asked session standard succeeded fixed reads
    have built := Session.built_of_build succeeded
    have isOver := over_restored_of_built standard built limit session.simplified
      (by simp [Session.trees])
    obtain ⟨tokens, nesting, tokenized, derived, covered⟩ :=
      simplify_read_text isOver positive reads
    rw [built.derivativeText]
    refine ⟨tokens, nesting, tokenized, derived, fun within => ?_⟩
    obtain ⟨reread, readBack, same⟩ := covered within
    exact ⟨reread, readBack, same.trans fixed⟩

/-- Negative constants and zeros with a sign come back out of a single pass as they were, and so
does the derivative of a formula that falls. -/
theorem simplify_reread_of_signs :
    let tree : Expr Float := binary .pow (binary .div (const (-0.0)) (var "x"))
      (neg (binary .div (const (-2.5)) (call "log" [var "x", const (-0.0)])))
    let settings : Settings Float := { Settings.standard with dialect := .within 9 }
    (∃ reread simplified, read (.within 9) tree.text = .ok reread ∧
      Simplified.tree <$> simplify 1 reread = .ok simplified ∧
      Simplified.tree <$> simplify 1 tree = .ok simplified) ∧
    ∃ session reread, Session.build settings (some "3 - 5*x") none = .ok session ∧
      session.derivativeText = "-5" ∧ read (.within 9) session.derivativeText = .ok reread ∧
      Simplified.tree <$> simplify 1 reread = .ok session.simplified := by
  intro tree settings
  have plain : ∀ value ∈ [(-0.0 : Float), -2.5, -5],
      Number.IsRestored value ∧ Number.ReadsBack value := by
    unfold Number.IsRestored
    decide +kernel
  constructor
  · have constants : ∀ value, const value ∈ tree.subtrees →
        Number.IsRestored value ∧ Number.ReadsBack value := by
      intro value inside
      refine plain value ?_
      have either : value = -0.0 ∨ value = -2.5 ∨ value = -0.0 := by
        simpa [tree, subtrees, subtreesOfAll] using inside
      rcases either with rfl | rfl | rfl <;> simp
    have written : tree.text = "(-0 / x) ^ -(-2.5 / log(x, -0))" := by decide +kernel
    have readBack : read (.within 9) tree.text = .ok tree.spelled := by
      rw [written]
      rfl
    obtain ⟨tokens, nesting, tokenized, derived, follows⟩ :=
      (simplify_reread 9 Nat.one_pos).1 tree (by decide) constants
    exact follows (nesting_le_of_read readBack tokenized derived)
  · have succeeded : Session.build settings (some "3 - 5*x") none =
        .ok ⟨"3 - 5*x", binary .sub (const 3) (binary .mul (const 5) (var "x")),
          binary .sub (const 0)
            (binary .add (binary .mul (const 0) (var "x")) (binary .mul (const 5) (const 1))),
          const (-5), "-5", "x"⟩ := by
      have textAccepted : Session.accepted settings (some "3 - 5*x") = .ok "3 - 5*x" := rfl
      have formulaRead : read settings.dialect "3 - 5*x" =
          .ok (binary .sub (const 3) (binary .mul (const 5) (var "x"))) := rfl
      have finished : simplify settings.maxPasses.toNat (binary .sub (const 0)
            (binary .add (binary .mul (const 0) (var "x")) (binary .mul (const 5) (const 1)))) =
          .ok ⟨const (-5 : Float), true⟩ := rfl
      have only : ∀ name ∈
          names (binary .sub (const (3 : Float)) (binary .mul (const 5) (var "x"))),
            name = Session.chosenVariable settings none := by decide
      exact Session.build_eq_ok textAccepted formulaRead only rfl finished
    have readBack : read (.within 9 : Dialect Float) "-5" = .ok (const (-5)).spelled := rfl
    obtain ⟨tokens, nesting, tokenized, derived, follows⟩ :=
      (simplify_reread 9 Nat.one_pos).2 settings 9 _ _ _ rfl succeeded rfl fun value inside => by
        obtain rfl : value = -5 := by simpa [subtrees] using inside
        exact (plain (-5) (by simp)).2
    obtain ⟨reread, again, simplified⟩ := follows (nesting_le_of_read readBack tokenized derived)
    exact ⟨_, reread, succeeded, rfl, again, simplified⟩

end Expr

end Tangent
