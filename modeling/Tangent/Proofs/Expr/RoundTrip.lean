import Tangent.Proofs.Expr.Read
import Tangent.Proofs.Number.Binary64

/-!
# Written formulas are read back

The text of a well formed tree is read as the tree with its constants spelled out, exactly when the
limit on nesting covers the text. A tree that was itself read from some text has only constants
that are spelled by their literals, so it is read back as it is.
-/

namespace Tangent

variable {ν : Type}

/-- The standard dialect with a limit on nesting of its own. -/
def Dialect.within [Arithmetic ν] (limit : Int) : Dialect ν :=
  { standard with maxNesting := limit }

variable [Number ν]

namespace Expr

open Token

/-- No constant of a tree is undefined. -/
def Defined (tree : Expr ν) : Prop :=
  tree.Throughout fun part => part.constant?.all (!Number.isUndefined ·) = true

instance (tree : Expr ν) : Decidable tree.Defined :=
  inferInstanceAs
    (Decidable (∀ part ∈ tree.subtrees, part.constant?.all (!Number.isUndefined ·) = true))

theorem defined_const {value : ν} : (const value).Defined ↔ Number.isUndefined value = false := by
  simp [Defined, constant?]

/-- A tree as reading makes them: well formed, with defined constants, and its own spelling. -/
structure IsRead (dialect : Dialect ν) (tree : Expr ν) : Prop where
  wellFormed : tree.WellFormed dialect
  defined : tree.Defined
  spelled_eq : tree.spelled = tree

/-- A tree whose constants are defined and have no sign is its own spelling. -/
theorem spelled_eq_of_over {vocabulary : Vocabulary ν} {tree : Expr ν}
    (plain : ∀ value, vocabulary.IsConstant value →
      Number.isUndefined value = false ∧ Number.isNegative value = false)
    (isOver : tree.Over vocabulary) : tree.spelled = tree := by
  induction tree with
  | const value =>
    obtain ⟨defined, unsigned⟩ := plain value (over_const.1 isOver)
    simp [spelled_const, defined, unsigned]
  | var name => rfl
  | neg operand inductionHypothesis => rw [spelled_neg, inductionHypothesis (over_neg.1 isOver)]
  | binary operator left right leftHypothesis rightHypothesis =>
    obtain ⟨leftOver, rightOver⟩ := over_binary.1 isOver
    rw [spelled_binary, leftHypothesis leftOver, rightHypothesis rightOver]
  | call name arguments inductionHypothesis =>
    have each := (over_call.1 isOver).2
    rw [spelled_call, List.map_congr_left fun argument present =>
      inductionHypothesis argument present (each argument present), List.map_id']

variable {dialect : Dialect ν} {source : String} {tree : Expr ν}

/-- What was read is a tree as reading makes them. -/
theorem isRead_of_read [Number.Lawful ν]
    (decimals : ∀ name value, dialect.constant? name = some value →
      ∃ decimal, value = Arithmetic.ofDecimal decimal)
    (succeeded : read dialect source = .ok tree) : IsRead dialect tree := by
  let vocabulary : Vocabulary ν :=
    ⟨fun name => dialect.isVariable name = true,
      fun value => ∃ decimal, value = Arithmetic.ofDecimal decimal⟩
  have isOver : tree.Over vocabulary := over_of_read succeeded decimals (fun _ free => free)
    fun _ tokenized _ _ present => exists_decimal_of_literal tokenized present
  refine ⟨wellFormed_iff.2 ⟨isOver.accepted, isOver.names⟩, fun part inside => ?_,
    spelled_eq_of_over ?_ isOver⟩
  · cases part with
    | const value =>
      obtain ⟨decimal, rfl⟩ := isOver.constants value inside
      simp [constant?, Number.isUndefined_ofDecimal]
    | _ => rfl
  · rintro _ ⟨decimal, rfl⟩
    exact ⟨Number.isUndefined_ofDecimal decimal, Number.Lawful.isNegative_ofDecimal decimal⟩

/-- What is read is not nested more deeply than the limit allows. -/
theorem nesting_le_of_read {tokens : List (Token ν)} {nesting : Nat} {other : Expr ν}
    (succeeded : read dialect source = .ok tree) (tokenized : tokenize source = .ok tokens)
    (derived : Derives dialect .sum (formula tokens) other nesting) :
    (nesting : Int) ≤ dialect.maxNesting := by
  obtain ⟨tokens', again, parsed⟩ := read_eq_ok_iff.1 succeeded
  obtain rfl : tokens = tokens' := Except.ok.inj (tokenized.symm.trans again)
  obtain ⟨further, within, derivedAgain⟩ := (parse_tokenized_eq_ok_iff tokenized).1 parsed
  rwa [(Derives.unique derived derivedAgain).2]

/-- A text is read as the tree that its formula derives, exactly when the limit covers the
nesting. -/
theorem read_eq_ok_iff_nesting_le {tokens : List (Token ν)} {nesting : Nat}
    (tokenized : tokenize source = .ok tokens)
    (derived : Derives dialect .sum (formula tokens) tree nesting) :
    read dialect source = .ok tree ↔ (nesting : Int) ≤ dialect.maxNesting := by
  constructor
  · intro succeeded
    exact nesting_le_of_read succeeded tokenized derived
  · intro within
    have parsed := (parse_tokenized_eq_ok_iff tokenized).2 ⟨nesting, within, derived⟩
    exact read_eq_ok_iff.2 ⟨tokens, tokenized, parsed⟩

/-- The extent of the text of a tree, as a sum. -/
def textExtent (tree : Expr ν) : Extent :=
  tree.extent.guarded .sum tree.precedence

/-- The text of a well formed tree is a phrase of its extent, for the tree as it reads back. -/
theorem tokenize_text [Number.Lawful ν] (wellFormed : tree.WellFormed dialect) :
    ∃ tokens, tokenize tree.text = .ok tokens ∧
      (formula tokens).length = tree.textExtent.symbols ∧
      Derives dialect .sum (formula tokens) (tree.resized Number.literal)
        tree.textExtent.nesting := by
  have sum : Written dialect .sum tree.characters (tree.resized Number.literal) tree.textExtent :=
    (written wellFormed).asSum
  obtain ⟨word, length, spells, derived⟩ := sum
  obtain ⟨front, position, tokenized, rfl⟩ := tokenize_of_spells spells
  obtain ⟨front', position', same, lexed⟩ := scan_lexed tokenized
  obtain ⟨rfl, rfl⟩ : front = front' ∧ position = position' := by simpa using same
  have symbols := (formula_of_lexed lexed position).2
  exact ⟨_, tokenized, by rw [symbols, length], symbols ▸ derived⟩

/-- The text of a well formed tree is a phrase of the grammar for the tree as it is spelled, and
is read as that tree exactly when the limit covers its nesting. -/
theorem read_text [Number.Lawful ν] (wellFormed : tree.WellFormed dialect)
    (reads : ∀ value, const value ∈ tree.subtrees → Number.ReadsBack value) :
    ∃ tokens nesting, tokenize tree.text = .ok tokens ∧
      Derives dialect .sum (formula tokens) tree.spelled nesting ∧
      (read dialect tree.text = .ok tree.spelled ↔ (nesting : Int) ≤ dialect.maxNesting) := by
  obtain ⟨tokens, tokenized, _, derived⟩ := tokenize_text wellFormed
  rw [resized_eq_spelled fun value inside defined =>
    Number.literal_eq_magnitude (reads value inside) defined] at derived
  exact ⟨tokens, _, tokenized, derived, read_eq_ok_iff_nesting_le tokenized derived⟩

/-- The constants of the standard dialect are numbers of decimals. -/
theorem decimals_within (limit : Int) (name : String) (value : ν)
    (known : (Dialect.within limit).constant? name = some value) :
    ∃ decimal, value = Arithmetic.ofDecimal decimal := by
  obtain ⟨entry, found, rfl⟩ := Option.map_eq_some_iff.1 known
  have listed := List.mem_of_find?_eq_some found
  simp only [Dialect.within, Dialect.standard, List.mem_cons, List.not_mem_nil, or_false] at listed
  rcases listed with rfl | rfl
  · exact ⟨_, rfl⟩
  · exact ⟨_, rfl⟩

/-- The text of every well formed tree is a phrase of the grammar, and it is read as the tree with
its constants spelled out exactly when the limit covers the nesting of that phrase. A tree that was
read from a text, under whatever limit, is well formed and its own spelling, so it comes back as it
is. -/
theorem read_text_eq_spelled [Number.Lawful ν] (limit : Int) (tree : Expr ν) :
    (tree.WellFormed (.within limit) →
      (∀ value, const value ∈ tree.subtrees → Number.ReadsBack value) →
        ∃ tokens nesting, tokenize tree.text = .ok tokens ∧
          Derives (.within limit) .sum (formula tokens) tree.spelled nesting ∧
          (read (.within limit) tree.text = .ok tree.spelled ↔ (nesting : Int) ≤ limit)) ∧
    ∀ (other : Int) (source : String), read (.within other) source = .ok tree →
      tree.WellFormed (.within limit) ∧ tree.spelled = tree := by
  refine ⟨read_text, fun other source succeeded => ?_⟩
  have isRead := isRead_of_read (decimals_within other) succeeded
  exact ⟨isRead.wellFormed, isRead.spelled_eq⟩

/-- Signs, infinities, undefined numbers and nested negations are read back at every place, and a
tree that was read under a wider limit is its own spelling. -/
theorem read_text_of_signs :
    let tree : Expr Float := binary .pow (const (-2.5)) (neg (binary .mul (const (-0.0))
      (binary .sub (call "log" [var "x", const (-1 / 0)])
        (binary .add (const (0 / 0)) (neg (neg (const 1e22)))))))
    let entered : Expr Float := binary .sub (neg (neg (const (1 / 0)))) (var "x")
    (tree.WellFormed (.within 6) ∧
      (∀ value, const value ∈ tree.subtrees → Number.ReadsBack value) ∧
      ∃ tokens nesting, tokenize tree.text = .ok tokens ∧
        Derives (.within 6) .sum (formula tokens) tree.spelled nesting ∧
        (read (.within 6) tree.text = .ok tree.spelled ↔ (nesting : Int) ≤ 6)) ∧
    read (.within 9) "--1e999 - x" = .ok entered ∧
      entered.WellFormed (.within 6) ∧ entered.spelled = entered := by
  intro tree entered
  have wellFormed : tree.WellFormed (.within 6) := by decide +kernel
  have reads : ∀ value, const value ∈ tree.subtrees → Number.ReadsBack value := by
    have each : ∀ value ∈ [(-2.5 : Float), -0.0, -1 / 0, 0 / 0, 1e22], Number.ReadsBack value := by
      decide +kernel
    intro value inside
    refine each value ?_
    simpa [tree, subtrees, subtreesOfAll] using inside
  have succeeded : read (.within 9) "--1e999 - x" = .ok entered := rfl
  exact ⟨⟨wellFormed, reads, (read_text_eq_spelled 6 tree).1 wellFormed reads⟩, succeeded,
    (read_text_eq_spelled 6 entered).2 9 "--1e999 - x" succeeded⟩

end Expr

end Tangent
