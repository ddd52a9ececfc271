import Tangent.Proofs.Expr.RoundTrip

/-!
# Parentheses of written formulas

The printer sets parentheses where the grammar needs them, and around an operand of a negation that
has a sign of its own, where it does not. So the text of a tree takes two symbols more than the
least extent of the tree for each negation of that kind, and its factors are nested as much more
deeply as such negations lie inside each other. Both bounds are kept from the parts of a tree to the
tree, since what a place adds to an extent depends on precedences alone.
-/

namespace Tangent

/-- One extent has some pairs of parentheses more than another, and not more than some levels of
nesting. -/
structure Extent.Exceeds (pairs levels : Nat) (extent other : Extent) : Prop where
  symbols : extent.symbols = other.symbols + 2 * pairs
  nesting : extent.nesting ≤ other.nesting + levels

namespace Extent.Exceeds

variable {pairs levels : Nat} {extent other : Extent}

theorem refl (extent : Extent) : extent.Exceeds 0 0 extent :=
  ⟨rfl, Nat.le_refl _⟩

/-- What adds as much to every extent keeps the excess. -/
theorem grown (exceeds : extent.Exceeds pairs levels other) (symbols nesting : Nat) :
    Extent.Exceeds pairs levels ⟨extent.symbols + symbols, extent.nesting + nesting⟩
      ⟨other.symbols + symbols, other.nesting + nesting⟩ := by
  obtain ⟨moreSymbols, moreNesting⟩ := exceeds
  constructor <;> dsimp only <;> omega

theorem deepened (exceeds : extent.Exceeds pairs levels other) :
    extent.deepened.Exceeds pairs levels other.deepened :=
  exceeds.grown 0 1

theorem enclosed (exceeds : extent.Exceeds pairs levels other) :
    extent.enclosed.Exceeds pairs levels other.enclosed :=
  exceeds.grown 2 0

theorem signed (exceeds : extent.Exceeds pairs levels other) :
    extent.signed.Exceeds pairs levels other.signed :=
  exceeds.grown 1 1

theorem called (exceeds : extent.Exceeds pairs levels other) :
    extent.called.Exceeds pairs levels other.called :=
  exceeds.grown 3 0

theorem loosened (exceeds : extent.Exceeds pairs levels other) (required actual : Precedence) :
    (extent.loosened required actual).Exceeds pairs levels (other.loosened required actual) := by
  unfold Extent.loosened
  split
  · exact exceeds.deepened
  · exact exceeds

theorem guarded (exceeds : extent.Exceeds pairs levels other) (required actual : Precedence) :
    (extent.guarded required actual).Exceeds pairs levels (other.guarded required actual) := by
  unfold Extent.guarded
  split
  · exact (exceeds.loosened .sum actual).enclosed.loosened required .atom
  · exact exceeds.loosened required actual

/-- Around an operand with a sign of its own there is a pair of parentheses too many. -/
theorem negated (exceeds : extent.Exceeds pairs levels other) (actual : Precedence) :
    (extent.negated actual).Exceeds (pairs + if actual = .negation then 1 else 0)
      (levels + if actual = .negation then 1 else 0)
      (other.guarded .negation actual).signed := by
  by_cases negated : actual = .negation
  · subst negated
    obtain ⟨symbols, nesting⟩ := exceeds
    constructor <;>
      simp [Extent.negated, Extent.guarded, Extent.loosened, Extent.signed, Extent.deepened,
        Extent.enclosed, Precedence.rank] <;> omega
  · simpa [Extent.negated, negated] using (exceeds.guarded .negation actual).signed

theorem joined {further more : Nat} {next nextOther : Extent}
    (left : extent.Exceeds pairs levels other) (right : next.Exceeds further more nextOther) :
    (extent.joined next).Exceeds (pairs + further) (max levels more) (other.joined nextOther) := by
  obtain ⟨leftSymbols, leftNesting⟩ := left
  obtain ⟨rightSymbols, rightNesting⟩ := right
  constructor <;> simp only [Extent.joined] <;> omega

end Extent.Exceeds

variable {ν : Type} [Number ν]

namespace Expr

/-- Whether a tree is a negation or a constant with a sign. -/
def hasSign : Expr ν → Bool
  | const value => Number.isNegative value
  | neg _ => true
  | _ => false

/-- Whether a tree is the negation of something with a sign. -/
def doublesSign : Expr ν → Bool
  | neg operand => operand.hasSign
  | _ => false

/-- How many negations in a tree stand directly on a sign. -/
def doubledSigns (tree : Expr ν) : Nat :=
  tree.subtrees.countP doublesSign

theorem doubledSigns_neg (operand : Expr ν) :
    (neg operand).doubledSigns = operand.doubledSigns + if operand.hasSign then 1 else 0 :=
  List.countP_cons

theorem doubledSigns_binary (operator : BinaryOperator) (left right : Expr ν) :
    (binary operator left right).doubledSigns = left.doubledSigns + right.doubledSigns := by
  simp [doubledSigns, subtrees, doublesSign]

theorem doubledSigns_call (name : String) (arguments : List (Expr ν)) :
    (call name arguments).doubledSigns = (subtreesOfAll arguments).countP doublesSign := by
  simp [doubledSigns, subtrees, doublesSign]

mutual

/-- How many negations that stand directly on a sign lie inside each other. -/
def doubledSignDepth : Expr ν → Nat
  | const _ => 0
  | var _ => 0
  | neg operand => operand.doubledSignDepth + if operand.hasSign then 1 else 0
  | binary _ left right => max left.doubledSignDepth right.doubledSignDepth
  | call _ arguments => greatestDoubledSignDepth arguments

/-- The most such negations inside each other in one of some trees. -/
def greatestDoubledSignDepth : List (Expr ν) → Nat
  | [] => 0
  | tree :: rest => max tree.doubledSignDepth (greatestDoubledSignDepth rest)

end

/-- What has a sign is written as a negation. -/
theorem hasSign_iff {tree : Expr ν} : tree.hasSign = true ↔ tree.precedence = .negation := by
  cases tree with
  | const value => cases negative : Number.isNegative value <;> simp [hasSign, precedence, negative]
  | neg operand => simp [hasSign, precedence]
  | binary operator left right =>
    cases operator <;> simp [hasSign, precedence, BinaryOperator.precedence]
  | var name | call name arguments => simp [hasSign, precedence]

section Resized

variable (size : ν → ν)

/-- What a tree without undefined constants reads back as binds as strongly as its text. -/
theorem strength_resized {tree : Expr ν} (defined : tree.Defined) :
    (tree.resized size).strength = tree.precedence := by
  cases tree with
  | const value =>
    have defined := defined_const.1 defined
    cases negative : Number.isNegative value <;>
      simp [resized, resizedConstant, defined, negative, strength, precedence]
  | _ => rfl

/-- The text of a tree exceeds the least extent of what it reads back as by the parentheses around
doubled signs. -/
def ExceedsLeast (tree : Expr ν) : Prop :=
  tree.extent.Exceeds tree.doubledSigns tree.doubledSignDepth (tree.resized size).least

theorem ExceedsLeast.guarded {tree : Expr ν} (exceeds : tree.ExceedsLeast size)
    (defined : tree.Defined) (required : Precedence) :
    (tree.extent.guarded required tree.precedence).Exceeds tree.doubledSigns tree.doubledSignDepth
      ((tree.resized size).leastAt required) := by
  rw [leastAt, strength_resized size defined]
  exact Extent.Exceeds.guarded exceeds required tree.precedence

/-- Arguments exceed their least extent together as each of them does. -/
theorem extentOfAll_exceeds {trees : List (Expr ν)}
    (each : ∀ tree ∈ trees, tree.Defined ∧ tree.ExceedsLeast size) :
    (extentOfAll trees).Exceeds ((subtreesOfAll trees).countP doublesSign)
      (greatestDoubledSignDepth trees) (leastOfAll (trees.map (resized size))) := by
  induction trees with
  | nil => exact .refl _
  | cons tree rest inductionHypothesis =>
    obtain ⟨⟨defined, exceeds⟩, inRest⟩ := List.forall_mem_cons.1 each
    have first := exceeds.guarded size defined .sum
    cases rest with
    | nil =>
      simpa [subtreesOfAll, greatestDoubledSignDepth, doubledSigns, extentOfAll, leastOfAll,
        leastAt] using first
    | cons next others =>
      rw [subtreesOfAll, List.countP_append]
      exact first.joined (inductionHypothesis inRest)

/-- Every tree without undefined constants is written in its least extent but for the parentheses
around doubled signs. -/
theorem exceedsLeast {tree : Expr ν} (defined : tree.Defined) : tree.ExceedsLeast size := by
  induction tree with
  | const value =>
    have defined := defined_const.1 defined
    cases negative : Number.isNegative value <;>
      simp only [ExceedsLeast, extent, constantExtent, resized, resizedConstant, defined,
        negative] <;>
      exact .refl _
  | var name => exact .refl _
  | neg operand inductionHypothesis =>
    have operandDefined := (throughout_neg.1 defined).2
    have exceeds := (inductionHypothesis operandDefined).negated operand.precedence
    rw [ExceedsLeast, doubledSigns_neg, doubledSignDepth, extent, resized, least,
      strength_resized size operandDefined]
    simpa only [hasSign_iff] using exceeds
  | binary operator left right leftHypothesis rightHypothesis =>
    obtain ⟨_, leftDefined, rightDefined⟩ := throughout_binary.1 defined
    have before := (leftHypothesis leftDefined).guarded size leftDefined operator.leftPrecedence
    have after := (rightHypothesis rightDefined).guarded size rightDefined operator.rightPrecedence
    rw [ExceedsLeast, doubledSigns_binary]
    exact before.joined after
  | call name arguments inductionHypothesis =>
    have argumentsDefined := (throughout_call.1 defined).2
    have each := extentOfAll_exceeds size fun argument present =>
      ⟨argumentsDefined argument present,
        inductionHypothesis argument present (argumentsDefined argument present)⟩
    rw [ExceedsLeast, doubledSigns_call, resized, resizedAll_eq_map]
    exact each.called

/-- The text of a tree exceeds the least extent of what it reads back as in the same way. -/
theorem textExtent_exceeds {tree : Expr ν} (defined : tree.Defined) :
    tree.textExtent.Exceeds tree.doubledSigns tree.doubledSignDepth
      ((tree.resized size).leastAt .sum) :=
  (exceedsLeast size defined).guarded size defined .sum

end Resized

open Token

/-- The text of a well formed tree without undefined constants has no parentheses that the grammar
does not need, but for a pair in each negation of a sign: whatever text is parsed as the same tree
has at most two tokens less for each of these. -/
theorem length_tokenize_text_le [Number.Lawful ν] {dialect : Dialect ν} {tree : Expr ν}
    (wellFormed : tree.WellFormed dialect) (defined : tree.Defined) :
    ∃ written nesting reread, tokenize tree.text = .ok written ∧
      Derives dialect .sum (formula written) reread nesting ∧
      ((nesting : Int) ≤ dialect.maxNesting →
        parse dialect written = .ok reread ∧
        ∀ source tokens, tokenize source = .ok tokens → parse dialect tokens = .ok reread →
          written.length ≤ tokens.length + 2 * tree.doubledSigns) := by
  obtain ⟨written, tokenized, symbols, derived⟩ := tokenize_text wellFormed
  refine ⟨written, _, _, tokenized, derived, fun within => ⟨?_, ?_⟩⟩
  · exact (parse_tokenized_eq_ok_iff tokenized).2 ⟨_, within, derived⟩
  · intro source tokens otherTokenized parsed
    obtain ⟨nesting, _, again⟩ := (parse_tokenized_eq_ok_iff otherTokenized).1 parsed
    have least := again.least_le.1
    have exceeds := (textExtent_exceeds Number.literal defined).symbols
    have length := length_of_tokenize tokenized
    have otherLength := length_of_tokenize otherTokenized
    simp only [Category.least] at least
    omega

/-- Two of the pairs of parentheses in the text `-(-x) - (-2.5) ^ -(1e999 + -(-0))` are not needed,
so the bound is reached by `--x - (-2.5)^-(1e999 + --0)`. -/
theorem length_tokenize_text_le_of_signs :
    let tree : Expr Float := binary .sub (neg (neg (var "x"))) (binary .pow (const (-2.5))
      (neg (binary .add (const (1 / 0)) (neg (const (-0.0))))))
    tree.WellFormed .standard ∧ tree.Defined ∧ tree.doubledSigns = 2 ∧
      ∃ (written : List (Token Float)) (nesting : Nat) (reread : Expr Float),
        tokenize tree.text = .ok written ∧
        Derives .standard .sum (formula written) reread nesting ∧ (nesting : Int) ≤ 100 ∧
        parse .standard written = .ok reread ∧
        ∀ source tokens, tokenize source = .ok tokens → parse .standard tokens = .ok reread →
          written.length ≤ tokens.length + 2 * 2 := by
  intro tree
  have wellFormed : tree.WellFormed .standard := by decide +kernel
  have defined : tree.Defined := by decide +kernel
  obtain ⟨written, nesting, reread, tokenized, derived, shortest⟩ :=
    length_tokenize_text_le wellFormed defined
  obtain ⟨again, tokenizedAgain, _, derivedAgain⟩ := tokenize_text wellFormed
  obtain rfl : written = again := Except.ok.inj (tokenized.symm.trans tokenizedAgain)
  obtain ⟨rfl, rfl⟩ := Derives.unique derived derivedAgain
  have within : (tree.textExtent.nesting : Int) ≤ 100 := by decide +kernel
  exact ⟨wellFormed, defined, rfl, written, _, _, tokenized, derived, within, shortest within⟩

/-- The text of a tree that was read nests its factors at most so many levels more deeply than the
limit as there are negations of a sign inside each other. That nesting alone decides which limits
accept the text. In particular the limit that the tree was read under accepts it, if no negation in
the tree stands directly on another one. -/
theorem read_text_iff_nesting_le [Number.Lawful ν] (limit : Int) {source : String} {tree : Expr ν}
    (succeeded : read (.within limit) source = .ok tree) :
    ∃ nesting : Nat, nesting ≤ limit + tree.doubledSignDepth ∧
      ∀ other : Int,
        (∃ again : Expr ν, read (.within other) tree.text = .ok again) ↔ nesting ≤ other := by
  obtain ⟨wellFormed, defined, spelled_eq⟩ := isRead_of_read (decimals_within limit) succeeded
  refine ⟨tree.textExtent.nesting, ?_, fun other => ?_⟩
  · obtain ⟨tokens, tokenized, parsed⟩ := read_eq_ok_iff.1 succeeded
    obtain ⟨nesting, within, derived⟩ := (parse_tokenized_eq_ok_iff tokenized).1 parsed
    have least := derived.least_le.2
    have exceeds := (textExtent_exceeds Number.magnitude defined).nesting
    rw [resized_eq_spelled fun _ _ _ => rfl, spelled_eq] at exceeds
    simp only [Category.least] at least
    have bounded : (nesting : Int) ≤ limit := within
    omega
  · have otherFormed : tree.WellFormed (.within other) := wellFormed
    obtain ⟨tokens, tokenized, _, derived⟩ := tokenize_text otherFormed
    constructor
    · rintro ⟨again, readAgain⟩
      exact nesting_le_of_read readAgain tokenized derived
    · intro within
      exact ⟨_, (read_eq_ok_iff_nesting_le tokenized derived).2 within⟩

/-- Between two signs the printer sets parentheses, which take a level of their own. -/
theorem read_text_iff_nesting_le_of_signs :
    let tree : Expr Float := neg (neg (var "x"))
    read (.within 3) "--x" = .ok tree ∧ tree.text = "-(-x)" ∧ tree.doubledSignDepth = 1 ∧
      ∃ nesting : Nat, nesting ≤ (3 : Int) + 1 ∧ ∀ other : Int,
        (∃ again : Expr Float, read (.within other) tree.text = .ok again) ↔ nesting ≤ other := by
  intro tree
  have succeeded : read (.within 3) "--x" = .ok tree := rfl
  exact ⟨succeeded, rfl, rfl, read_text_iff_nesting_le 3 succeeded⟩

/-- A limit of three levels accepts two signs, and not the text they are written as. -/
theorem not_forall_read_text :
    ¬∀ (limit : Int) (source : String) (tree : Expr Float), read (.within limit) source = .ok tree →
      ∃ again : Expr Float, read (.within limit) tree.text = .ok again := by
  intro accepted
  obtain ⟨again, succeeded⟩ := accepted 3 "--x" (neg (neg (var "x"))) rfl
  have refused : (read (.within 3) "-(-x)" : Outcome Float (Expr Float)) =
      .error (.malformed (.unexpected (.nesting 3) (.identifier "x") 3)) := rfl
  cases refused.symm.trans succeeded

end Expr

end Tangent
