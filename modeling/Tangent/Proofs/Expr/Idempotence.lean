import Tangent.Proofs.Expr.RoundTrip
import Tangent.Proofs.Expr.Settling
import Tangent.Settings

/-!
# Simplifying twice

The passes that a formula takes to come to rest are bounded by its nesting. Only a difference can
hide an infinity from its own operands, and what it is divided into has to stand in parentheses,
which cost a level each; so what is left for further passes after the first one is one less than
the levels of factors. A limit on passes that covers the nesting therefore makes the simplifier
idempotent, and where it covers one level less there are formulas that it does not stop at.
-/

namespace Tangent

variable {ν : Type} [Arithmetic ν]

namespace Expr

/-- How near to rest the first pass leaves an operand that has so many levels of factors below
it. -/
def RestsOperand (levels : Nat) (tree : Expr ν) : Prop :=
  ∀ after, pass tree = .ok after →
    after.passesToRest ≤ levels - 1 ∧ (after.isNegation = true → 0 < levels)

/-- How near to rest the first pass leaves a sum that has so many levels of factors. The last of
them may be needed for an infinity that its own difference hides, but its value does not wait for
that. -/
def RestsSum (levels : Nat) (tree : Expr ν) : Prop :=
  ∀ after, pass tree = .ok after →
    after.passesToRest ≤ levels - 1 ∧ after.passesToValue ≤ levels - 2

end Expr

open Tangent.Expr

/-- How near to rest the first pass leaves the trees of a phrase. Factors and products count the
level of the factor itself, the phrases inside of it do not. -/
def Category.Rests (nesting : Nat) : (category : Category) → category.Meaning ν → Prop
  | sum, tree => tree.RestsSum nesting
  | product, tree | factor, tree => tree.RestsOperand (nesting - 1)
  | power, tree | primary, tree => tree.RestsOperand nesting
  | arguments, trees => ∀ tree ∈ trees, tree.RestsSum nesting

namespace Expr

variable {levels other : Nat} {operator : BinaryOperator} {name : String}
  {operand left right : Expr ν} {arguments : List (Expr ν)}

theorem RestsOperand.mono (rests : operand.RestsOperand levels) (more : levels ≤ other) :
    operand.RestsOperand other := by
  intro after passed
  obtain ⟨bound, sign⟩ := rests after passed
  exact ⟨by omega, fun isNegation => by have := sign isNegation; omega⟩

theorem RestsSum.mono (rests : operand.RestsSum levels) (more : levels ≤ other) :
    operand.RestsSum other := by
  intro after passed
  obtain ⟨bound, value⟩ := rests after passed
  exact ⟨by omega, by omega⟩

/-- A sum in parentheses is an operand. -/
theorem RestsSum.enclosed (rests : operand.RestsSum levels) (positive : 0 < levels) :
    operand.RestsOperand levels :=
  fun after passed => ⟨(rests after passed).1, fun _ => positive⟩

/-- An operand alone is a sum. -/
theorem RestsOperand.sum (rests : operand.RestsOperand (levels - 1)) :
    operand.RestsSum levels := by
  intro after passed
  obtain ⟨bound, _⟩ := rests after passed
  have := after.passesToValue_le
  exact ⟨by omega, by omega⟩

theorem RestsOperand.neg (rests : operand.RestsOperand (levels - 1)) (positive : 0 < levels) :
    (Expr.neg operand).RestsOperand levels := by
  intro after passed
  refine ⟨?_, fun _ => positive⟩
  obtain ⟨newOperand, operandPassed, finished⟩ := exists_of_bind_eq_ok passed
  obtain ⟨bound, _⟩ := rests newOperand operandPassed
  split at finished
  · next isConstant =>
    obtain ⟨value, rfl⟩ := isConstant_iff.1 isConstant
    rcases folded_eq_ok finished with ⟨result, rfl, _⟩ | ⟨rfl, _⟩ <;> exact Nat.zero_le _
  · cases finished
    cases newOperand with
    | neg inner =>
      change inner.passesToRest ≤ _
      simp only [passesToRest] at bound
      omega
    | _ =>
      simp only [negated, passesToRest, isNegation, Bool.false_eq_true, if_false] at bound ⊢
      omega

/-- Only a difference may need a level more than its operands. -/
theorem RestsOperand.operation (leftRests : left.RestsOperand levels)
    (rightRests : right.RestsOperand levels) (noDifference : operator ≠ .sub) :
    (binary operator left right).RestsOperand levels := by
  intro after passed
  obtain ⟨newLeft, newRight, leftPassed, rightPassed, finished⟩ := exists_operands_of_pass passed
  have leftBound := leftRests newLeft leftPassed
  have rightBound := rightRests newRight rightPassed
  rcases operated_cases finished with rfl | isConstant | rfl | rfl | ⟨isSub, _⟩
  · constructor
    · simp only [passesToRest, noDifference, false_and, if_false]
      omega
    · rintro ⟨⟩
  · obtain ⟨value, rfl⟩ := isConstant_iff.1 isConstant
    constructor
    · exact Nat.zero_le _
    · rintro ⟨⟩
  · exact leftBound
  · exact rightBound
  · exact absurd isSub noDifference

/-- The last operand of a sum is a product, which rests a level sooner than the sum. -/
theorem RestsSum.operation (strength : operator.precedence = .sum)
    (leftRests : left.RestsSum levels) (rightRests : right.RestsOperand (levels - 1)) :
    (binary operator left right).RestsSum levels := by
  have isSum : operator = .add ∨ operator = .sub := by
    cases operator with
    | add => exact .inl rfl
    | sub => exact .inr rfl
    | _ => cases strength
  intro after passed
  obtain ⟨newLeft, newRight, leftPassed, rightPassed, finished⟩ := exists_operands_of_pass passed
  obtain ⟨leftBound, leftValue⟩ := leftRests newLeft leftPassed
  obtain ⟨rightBound, rightSign⟩ := rightRests newRight rightPassed
  have rightValue := newRight.passesToValue_le
  rcases operated_cases finished with rfl | isConstant | rfl | rfl | ⟨_, _, _, rfl⟩
  · constructor
    · simp only [passesToRest]
      split <;> omega
    · simp only [passesToValue, isSum, if_true]
      omega
  · obtain ⟨value, rfl⟩ := isConstant_iff.1 isConstant
    exact ⟨Nat.zero_le _, Nat.zero_le _⟩
  · exact ⟨leftBound, leftValue⟩
  · exact ⟨by omega, by omega⟩
  · refine ⟨?_, Nat.le_trans rightValue (by omega)⟩
    simp only [passesToRest]
    split
    · next isNegation =>
      have := rightSign isNegation
      omega
    · omega

/-- A call waits for its arguments. -/
theorem RestsOperand.application (rest : ∀ argument ∈ arguments, argument.RestsSum levels) :
    (call name arguments).RestsOperand levels := by
  intro after passed
  obtain ⟨results, argumentsPassed, finished⟩ := exists_of_bind_eq_ok passed
  have bound : mostPassesToRest results ≤ levels - 1 := by
    refine mostPassesToRest_le_iff.2 fun result present => ?_
    obtain ⟨argument, inside, argumentPassed⟩ := exists_of_mem_passAll argumentsPassed present
    exact (rest argument inside result argumentPassed).1
  split at finished
  · rcases folded_eq_ok finished with ⟨value, rfl, _⟩ | ⟨rfl, _⟩
    · exact ⟨Nat.zero_le _, nofun⟩
    · exact ⟨bound, nofun⟩
  · cases finished
    exact ⟨bound, nofun⟩

end Expr

/-- The first pass leaves every phrase as near to rest as its nesting says. -/
theorem Derives.rests {dialect : Dialect ν} {category : Category} {word : List (Symbol ν)}
    {meaning : category.Meaning ν} {nesting : Nat}
    (derivation : Derives dialect category word meaning nesting) :
    category.Rests nesting meaning := by
  induction derivation with
  | number value | constant unregistered known | free unregistered unknown =>
    intro after passed
    cases passed
    exact ⟨Nat.le_refl 0, nofun⟩
  | group opening closing inner rests => exact rests.enclosed (inner.nesting_pos (.inl rfl))
  | call opening closing registered accepted _ rests => exact .application rests
  | last _ rests => exact List.forall_mem_singleton.2 rests
  | separated comma _ _ headRests tailRests =>
    refine List.forall_mem_cons.2 ⟨headRests.mono (Nat.le_max_left _ _), ?_⟩
    exact fun tree present => (tailRests tree present).mono (Nat.le_max_right _ _)
  | unraised _ rests | unsigned _ rests | lone _ rests => exact rests
  | single _ rests => exact rests.sum
  | raised _ _ belowRests aboveRests =>
    exact .operation (belowRests.mono (by omega)) (aboveRests.mono (by omega)) nofun
  | negated inner rests => exact rests.neg (inner.nesting_pos (.inr (.inr rfl)))
  | multiplied strength _ _ beforeRests afterRests =>
    refine .operation (beforeRests.mono (by omega)) (afterRests.mono (by omega)) ?_
    rintro rfl
    cases strength
  | added strength _ _ beforeRests afterRests =>
    exact .operation strength (beforeRests.mono (by omega)) (afterRests.mono (by omega))

namespace Expr

section Reading

variable {source : String} {tree : Expr Float}

/-- As many passes as a text may nest its factors bring its formula to rest. -/
theorem exists_fixed_of_read {dialect : Dialect Float}
    (succeeded : read dialect source = .ok tree) {limit : Nat}
    (within : dialect.maxNesting ≤ limit) :
    ∃ result, passes limit tree = .ok result ∧ pass result = .ok result := by
  obtain ⟨tokens, tokenized, parsed⟩ := read_eq_ok_iff.1 succeeded
  obtain ⟨nesting, below, derived⟩ := (parse_tokenized_eq_ok_iff tokenized).1 parsed
  have positive := derived.nesting_pos (.inl rfl)
  -- The first pass rebuilds the tree, and only rebuilt trees come nearer to rest with each pass.
  obtain ⟨further, rfl⟩ : ∃ further, limit = further + 1 := ⟨limit - 1, by omega⟩
  have accepted := callsAccepted_of_read succeeded
  obtain ⟨first, passed⟩ := exists_pass accepted
  have near := (derived.rests first passed).1
  obtain ⟨result, reached, fixed⟩ := exists_rest (callsAccepted_of_pass passed accepted)
    (rebuilt_of_pass passed) (show first.passesToRest ≤ further by omega)
  exact ⟨result, (passes_succ passed).trans reached, fixed⟩

/-- Simplifying a tree of accepted calls twice is simplifying it once, exactly when a further pass
leaves the simplified tree as it is: a pass that changes it takes nodes away, and no later one
brings them back. -/
theorem exists_simplified_twice {tree : Expr ν} (accepted : tree.CallsAccepted) {limit : Nat}
    (positive : 0 < limit) :
    ∃ once again, simplify limit tree = .ok once ∧ simplify limit once.tree = .ok again ∧
      (again.tree = once.tree ↔ pass once.tree = .ok once.tree) := by
  obtain ⟨once, succeeded, onceAccepted⟩ := exists_simplify_accepted accepted limit
  obtain ⟨again, againSucceeded, _⟩ := exists_simplify_accepted onceAccepted limit
  refine ⟨once, again, succeeded, againSucceeded, ?_⟩
  have reached := passes_of_simplify againSucceeded
  constructor
  · intro same
    obtain ⟨next, passed⟩ := exists_pass onceAccepted
    rcases pass_eq_or_count_lt once.tree passed with rfl | smaller
    · exact passed
    · obtain ⟨further, rfl⟩ : ∃ further, limit = further + 1 := ⟨limit - 1, by omega⟩
      obtain ⟨last, lastReached, noLarger⟩ :=
        exists_passes_noLarger (callsAccepted_of_pass passed onceAccepted) further
      rw [passes_succ passed] at reached
      obtain rfl : last = again.tree := Except.ok.inj (lastReached.symm.trans reached)
      have := noLarger.count_le
      rw [same] at this
      omega
  · intro fixed
    exact Except.ok.inj (reached.symm.trans (passes_of_pass_eq fixed limit))

/-- The constants of the standard dialect are finite. -/
theorem isFinite_of_named {limit : Int} {name : String} {value : Float}
    (known : (Dialect.within limit : Dialect Float).constant? name = some value) :
    Arithmetic.isFinite value = true := by
  have each : ∀ entry ∈ (Dialect.standard : Dialect Float).constants,
      Arithmetic.isFinite entry.2 = true := by decide +kernel
  obtain ⟨entry, found, rfl⟩ := Option.map_eq_some_iff.1 known
  exact each entry (List.mem_of_find?_eq_some found)

/-- What is read from finite literals is made of finite constants. -/
theorem overFiniteConstants_of_read {limit : Int}
    (succeeded : read (.within limit) source = .ok tree)
    (literals : ∀ tokens : List (Token Float), Token.tokenize source = .ok tokens →
      ∀ value position, ⟨.number value, position⟩ ∈ tokens → Arithmetic.isFinite value = true) :
    tree.Over .finiteConstants :=
  over_of_read succeeded (fun _ _ => isFinite_of_named) (fun _ _ => trivial) literals

/-- Simplifying a formula twice is simplifying it once, exactly when a further pass leaves the
simplified formula as it is. That is so whenever the limit on passes covers the nesting of the text:
when the text is also read under that limit on nesting. With two passes or more it is also so
whenever the literals of the text are finite. -/
theorem simplify_idempotent (limit nesting : Int) (positive : 1 ≤ limit)
    (succeeded : read (.within nesting) source = .ok tree) :
    ∃ once again, simplify limit.toNat tree = .ok once ∧
      simplify limit.toNat once.tree = .ok again ∧
      (again.tree = once.tree ↔ pass once.tree = .ok once.tree) ∧
      (read (.within limit) source = .ok tree → again.tree = once.tree) ∧
      (2 ≤ limit →
        (∀ tokens : List (Token Float), Token.tokenize source = .ok tokens → ∀ value position,
          ⟨.number value, position⟩ ∈ tokens → Arithmetic.isFinite value = true) →
        again.tree = once.tree) := by
  obtain ⟨once, again, succeededOnce, succeededAgain, twice⟩ :=
    exists_simplified_twice (callsAccepted_of_read succeeded) (Int.pos_iff_toNat_pos.1 positive)
  have simplified := passes_of_simplify succeededOnce
  refine ⟨once, again, succeededOnce, succeededAgain, twice, fun covered => ?_,
    fun enough literals => ?_⟩
  · obtain ⟨result, reached, fixed⟩ := exists_fixed_of_read covered (Int.self_le_toNat limit)
    obtain rfl : result = once.tree := Except.ok.inj (reached.symm.trans simplified)
    exact twice.2 fixed
  · obtain ⟨result, reached, _, fixed⟩ :=
      exists_settled (overFiniteConstants_of_read succeeded literals)
    have stays := passes_eq_of_le reached fixed ((Int.le_toNat (by omega)).2 enough)
    obtain rfl : result = once.tree := Except.ok.inj (stays.symm.trans simplified)
    exact twice.2 fixed

/-- The infinity behind two signs comes out in the second pass, and with it the quotient is folded
and the zero dropped. One pass alone is not idempotent there. -/
theorem simplify_idempotent_of_hidden_infinity :
    let tree : Expr Float := binary .sub (binary .div (const 1)
      (binary .sub (const 0) (neg (const (1 / 0))))) (var "x")
    read (.within 3) "1/(0 - -1e999) - x" = .ok tree ∧
      (∃ once again, simplify 3 tree = .ok once ∧ simplify 3 once.tree = .ok again ∧
        again.tree = once.tree ∧ once.tree = neg (var "x")) ∧
      ∃ once again, simplify 1 tree = .ok once ∧ simplify 1 once.tree = .ok again ∧
        again.tree ≠ once.tree := by
  intro tree
  have succeeded : read (.within 3) "1/(0 - -1e999) - x" = .ok tree := rfl
  refine ⟨succeeded, ?_, ?_⟩
  · obtain ⟨once, again, first, second, _, covered, _⟩ :=
      simplify_idempotent 3 3 (by decide) succeeded
    have known : simplify 3 tree = .ok ⟨neg (var "x"), true⟩ := rfl
    obtain rfl := Except.ok.inj (known.symm.trans first)
    exact ⟨_, again, first, second, covered succeeded, rfl⟩
  · obtain ⟨once, again, first, second, twice, _, _⟩ :=
      simplify_idempotent 1 3 (by decide) succeeded
    refine ⟨once, again, first, second, fun same => ?_⟩
    have known : simplify 1 tree = .ok ⟨binary .sub (binary .div (const 1)
      (neg (neg (const (1 / 0))))) (var "x"), false⟩ := rfl
    obtain rfl := Except.ok.inj (known.symm.trans first)
    have changes : pass (binary .sub (binary .div (const 1) (neg (neg (const (1 / 0)))))
      (var "x") : Expr Float) = .ok (neg (var "x")) := rfl
    cases changes.symm.trans (twice.1 same)

end Reading

section Towers

/-- An infinity that a difference hides behind two signs: nothing is taken from it but its own
negation. -/
def hidden (tree : Expr Float) : Expr Float :=
  binary .sub tree (neg (const (1 / 0)))

/-- Hidden infinities upon each other. What is divided by the infinity below comes out as zero, and
only then the next infinity can come out. -/
def tower : Nat → Expr Float
  | 0 => hidden (const 0)
  | height + 1 => hidden (binary .div (const 1) (tower height))

example : (tower 1).text = "1 / (0 - -1e999) - -1e999" := by rfl

/-- A storey waits as long as there is no constant below it. -/
theorem pass_storey {tree after : Expr Float} (passed : pass tree = .ok after)
    (noConstant : after.isConstant = false) :
    pass (hidden (binary .div (const 1) tree)) = .ok (hidden (binary .div (const 1) after)) := by
  have quotientPassed : pass (binary .div (const 1) tree) = .ok (binary .div (const 1) after) := by
    rw [pass, passed]
    cases after with
    | const value => cases noConstant
    | _ => rfl
  rw [hidden, pass, quotientPassed]
  rfl

theorem passes_storey {number : Nat} {tree after : Expr Float}
    (reached : passes number tree = .ok after) (noConstant : after.isConstant = false) :
    passes number (hidden (binary .div (const 1) tree)) =
      .ok (hidden (binary .div (const 1) after)) := by
  induction number generalizing tree with
  | zero =>
    cases reached
    rfl
  | succ number inductionHypothesis =>
    obtain ⟨next, passed, others⟩ := exists_of_bind_eq_ok reached
    have nextNone : next.isConstant = false := by
      cases isConstant : next.isConstant with
      | false => rfl
      | true =>
        obtain ⟨value, rfl⟩ := isConstant_iff.1 isConstant
        obtain rfl : const value = after :=
          Except.ok.inj ((passes_of_pass_eq rfl number).symm.trans others)
        exact noConstant
    rw [passes_succ (pass_storey passed nextNone)]
    exact inductionHypothesis others

/-- The first infinity of a tower comes out one storey a pass. -/
theorem passes_tower (height : Nat) :
    passes (height + 1) (tower height) = .ok (neg (neg (const (1 / 0)))) := by
  induction height with
  | zero => rfl
  | succ height inductionHypothesis =>
    -- The new storey waits for the one below. One more pass folds that, the quotient and the zero.
    rw [passes_add, tower, passes_storey inductionHypothesis rfl]
    rfl

theorem resized_tower (height : Nat) :
    (tower height).resized Number.literal = tower height := by
  induction height with
  | zero => rfl
  | succ height inductionHypothesis =>
    have same : (tower (height + 1)).resized Number.literal =
        hidden (binary .div (const 1) ((tower height).resized Number.literal)) := rfl
    rw [same, inductionHypothesis, tower]

theorem wellFormed_tower (dialect : Dialect Float) (height : Nat) :
    (tower height).WellFormed dialect := by
  have shape : (tower height).CallsAccepted ∧ (tower height).names = [] := by
    induction height with
    | zero => exact ⟨by decide, rfl⟩
    | succ height inductionHypothesis =>
      obtain ⟨accepted, closed⟩ := inductionHypothesis
      refine ⟨?_, ?_⟩
      · simp [tower, hidden, accepted]
      · simp [tower, hidden, names, closed]
  refine wellFormed_iff.2 ⟨shape.1, ?_⟩
  simp [shape.2]

theorem precedence_tower (height : Nat) : (tower height).precedence = .sum := by
  cases height <;> rfl

theorem nesting_tower (height : Nat) : (tower height).textExtent.nesting = height + 2 := by
  induction height with
  | zero => rfl
  | succ height inductionHypothesis =>
    have enclosed : (tower (height + 1)).textExtent =
        (Extent.single.deepened.joined
          ((tower height).extent.guarded .negation (tower height).precedence)).joined
            Extent.single.deepened.signed := rfl
    rw [textExtent, precedence_tower] at inductionHypothesis
    have inner : ((tower height).extent.guarded .negation .sum).nesting =
        ((tower height).extent.guarded .sum .sum).nesting + 1 := rfl
    rw [enclosed, precedence_tower]
    simp only [Extent.joined, inner, inductionHypothesis]
    change max (max 1 (height + 2 + 1)) 2 = height + 1 + 2
    omega

/-- The text of a tower is read as that tower under limits of two levels more than its height. -/
theorem read_tower_iff (limit : Int) (height : Nat) :
    read (.within limit) (tower height).text = .ok (tower height) ↔ height + 2 ≤ limit := by
  obtain ⟨tokens, tokenized, _, derived⟩ := tokenize_text (wellFormed_tower (.within limit) height)
  rw [resized_tower, nesting_tower] at derived
  rw [read_eq_ok_iff_nesting_le tokenized derived]
  simp only [Dialect.within]
  omega

/-- With one pass less than there are levels in a tower, the simplifier leaves two signs in front of
the last infinity, and takes them away when it is run again. -/
theorem tower_restless {nesting : Int} (height : Nat) (allowed : height + 2 ≤ nesting) :
    read (.within nesting) (tower height).text = .ok (tower height) ∧
      ∃ once again, simplify (height + 1) (tower height) = .ok once ∧
        simplify (height + 1) once.tree = .ok again ∧ again.tree ≠ once.tree := by
  have succeeded := (read_tower_iff nesting height).2 allowed
  obtain ⟨once, again, first, second, twice⟩ :=
    exists_simplified_twice (callsAccepted_of_read succeeded) (Nat.succ_pos height)
  have signs : neg (neg (const (1 / 0))) = once.tree :=
    Except.ok.inj ((passes_tower height).symm.trans (passes_of_simplify first))
  refine ⟨succeeded, once, again, first, second, fun same => ?_⟩
  have fixed := twice.1 same
  have uncovered : pass (neg (neg (const (1 / 0))) : Expr Float) = .ok (const (1 / 0)) := rfl
  rw [← signs] at fixed
  cases uncovered.symm.trans fixed

/-- Under the limits that hold unless others are given, a text may be nested more deeply than the
simplifier makes passes, and simplifying such a text twice can take it further. -/
theorem not_forall_simplify_idempotent :
    let settings : Settings Float := .standard
    ¬∀ (source : String) (tree : Expr Float) (once again : Simplified Float),
      read settings.dialect source = .ok tree →
        simplify settings.maxPasses.toNat tree = .ok once →
          simplify settings.maxPasses.toNat once.tree = .ok again → again.tree = once.tree := by
  intro settings idempotent
  obtain ⟨succeeded, once, again, first, second, changed⟩ :=
    tower_restless 63 (show (63 : Nat) + 2 ≤ (100 : Int) by decide)
  exact changed (idempotent (tower 63).text (tower 63) once again succeeded first second)

end Towers

end Expr

end Tangent
