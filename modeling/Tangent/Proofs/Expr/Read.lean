import Tangent.Expr.Reader
import Tangent.Proofs.Expr.Vocabulary
import Tangent.Proofs.Expr.Written
import Tangent.Proofs.Grammar.Recognition
import Tangent.Proofs.Token.Lexed

/-!
# What read formulas are made of

A text is read through its tokens. The variables and constants of the tree come from them: a name
alone is a variable, or the constant that the dialect has under it, and every other constant is a
number of the text. So a formula is over a vocabulary as soon as its literals and the named
constants are.
-/

namespace Tangent

variable {ν : Type}

/-- Whether a property holds of every tree a phrase stands for. -/
def Category.All (property : Expr ν → Prop) : (category : Category) → category.Meaning ν → Prop
  | arguments, trees => ∀ tree ∈ trees, property tree
  | sum, tree | product, tree | factor, tree | power, tree | primary, tree => property tree

/-- Whether a symbol, if it is a number, is one of a vocabulary, and has a proper name if it is an
identifier. -/
def Symbol.Over (vocabulary : Vocabulary ν) : Symbol ν → Prop
  | number value => vocabulary.IsConstant value
  | identifier name => Token.isName name = true
  | _ => True

open Tangent.Expr

/-- Symbols over a vocabulary derive trees over it, if it has the named constants of the dialect and
the names of variables. -/
theorem Derives.isOver {dialect : Dialect ν} {vocabulary : Vocabulary ν} {category : Category}
    {word : List (Symbol ν)} {meaning : category.Meaning ν} {nesting : Nat}
    (derivation : Derives dialect category word meaning nesting)
    (named : ∀ name value, dialect.constant? name = some value → vocabulary.IsConstant value)
    (free : ∀ name, dialect.isVariable name = true → vocabulary.IsVariable name)
    (isOver : ∀ symbol ∈ word, symbol.Over vocabulary) :
    category.All (Expr.Over vocabulary) meaning := by
  induction derivation with
  | number value => exact over_const.2 (isOver _ List.mem_cons_self)
  | @constant name value _ known => exact over_const.2 (named name value known)
  | @free name unregistered unknown =>
    have isName : Token.isName name = true := isOver _ List.mem_cons_self
    refine over_var.2 (free name ?_)
    simp [Dialect.isVariable, isName, unregistered, unknown]
  | group opening closing _ inner =>
    exact inner fun symbol present => isOver symbol (by simp [present])
  | call opening closing registered accepted _ inner =>
    refine over_call.2 ⟨(Option.any_eq_true _ _).2 ⟨_, registered, accepted⟩, ?_⟩
    exact inner fun symbol present => isOver symbol (by simp [present])
  | last _ only => exact List.forall_mem_singleton.2 (only isOver)
  | separated comma _ _ head tail =>
    obtain ⟨inFirst, inOthers⟩ := List.forall_mem_append.1 isOver
    exact List.forall_mem_cons.2 ⟨head inFirst, tail (List.forall_mem_cons.1 inOthers).2⟩
  | unraised _ only | unsigned _ only | lone _ only | single _ only => exact only isOver
  | negated _ inner => exact over_neg.2 (inner (List.forall_mem_cons.1 isOver).2)
  | raised _ _ before after | multiplied _ _ _ before after | added _ _ _ before after =>
    obtain ⟨inLeft, inRight⟩ := List.forall_mem_append.1 isOver
    exact over_binary.2 ⟨before inLeft, after (List.forall_mem_cons.1 inRight).2⟩

namespace Expr

/-- A tree is well formed when its calls are accepted and its variables have names of variables. -/
theorem wellFormed_iff {dialect : Dialect ν} {tree : Expr ν} :
    tree.WellFormed dialect ↔
      tree.CallsAccepted ∧ ∀ name ∈ tree.names, dialect.isVariable name = true := by
  induction tree with
  | const value => simp [WellFormed, hasReadableRoot, names]
  | var name => simp [WellFormed, hasReadableRoot, names]
  | neg operand inductionHypothesis =>
    rw [callsAccepted_neg, names, ← inductionHypothesis]
    exact throughout_neg.trans (and_iff_right rfl)
  | binary operator left right leftHypothesis rightHypothesis =>
    rw [callsAccepted_binary, names, List.forall_mem_append, and_and_and_comm, ← leftHypothesis,
      ← rightHypothesis]
    exact throughout_binary.trans (and_iff_right rfl)
  | call name arguments inductionHypothesis =>
    have each : (∀ argument ∈ arguments, argument.WellFormed dialect) ↔
        (∀ argument ∈ arguments, argument.CallsAccepted) ∧
          ∀ other ∈ names (call name arguments), dialect.isVariable other = true := by
      simp only [names, namesOfAll_eq_flatMap, List.forall_mem_flatMap, ← imp_and, ← forall_and]
      exact forall₂_congr inductionHypothesis
    rw [CallsAccepted, throughout_call, and_assoc]
    exact throughout_call.trans (and_congr_right fun _ => each)

open Token

variable [Number ν] {dialect : Dialect ν} {source : String} {tree : Expr ν}

/-- A text is read through its tokens. -/
theorem read_eq_ok_iff :
    read dialect source = .ok tree ↔
      ∃ tokens, tokenize source = .ok tokens ∧ parse dialect tokens = .ok tree := by
  constructor
  · intro succeeded
    obtain ⟨tokens, tokenized, parsed⟩ := exists_of_bind_eq_ok succeeded
    exact ⟨tokens, mapError_eq_ok_iff.1 tokenized, mapError_eq_ok_iff.1 parsed⟩
  · rintro ⟨tokens, tokenized, parsed⟩
    rw [read, tokenized]
    exact mapError_eq_ok_iff.2 parsed

/-- The symbols of a text are lexed, and the end of its input is the only one. -/
theorem formula_of_lexed {front : List (Token ν)} (lexed : ∀ token ∈ front, token.symbol.Lexed)
    (position : Int) :
    Spelled front ∧ formula (front ++ [⟨.endOfInput, position⟩]) = front.map Token.symbol := by
  constructor
  · intro token present isEmpty
    obtain ⟨operator, same⟩ : ∃ operator : BinaryOperator, "" = operator.sign := by
      have := lexed token present
      rwa [isEmpty] at this
    exact operator.sign_ne_empty same.symm
  · refine formula_append fun present => ?_
    obtain ⟨token, inFront, isEnd⟩ := List.mem_map.1 present
    have := lexed token inFront
    rw [isEnd] at this
    exact this

/-- The tokens of a text are the symbols of its formula and the end of the input. -/
theorem length_of_tokenize {tokens : List (Token ν)} (tokenized : tokenize source = .ok tokens) :
    tokens.length = (formula tokens).length + 1 := by
  obtain ⟨front, position, rfl, lexed⟩ := scan_lexed tokenized
  rw [(formula_of_lexed lexed position).2, List.length_append, List.length_map]
  rfl

/-- The tokens of a text are parsed as what their formula derives within the limit. -/
theorem parse_tokenized_eq_ok_iff {tokens : List (Token ν)}
    (tokenized : tokenize source = .ok tokens) :
    parse dialect tokens = .ok tree ↔
      ∃ nesting : Nat, nesting ≤ dialect.maxNesting ∧
        Derives dialect .sum (formula tokens) tree nesting := by
  obtain ⟨front, position, rfl, lexed⟩ := scan_lexed tokenized
  have spelled := (formula_of_lexed lexed position).1
  constructor
  · exact exists_derives_of_parse spelled
  · rintro ⟨nesting, within, derived⟩
    exact parse_eq_ok_of_derives spelled within derived

/-- The literals of a text stand for numbers of decimals. -/
theorem exists_decimal_of_literal {tokens : List (Token ν)}
    (tokenized : tokenize source = .ok tokens) {value : ν} {position : Int}
    (present : ⟨.number value, position⟩ ∈ tokens) :
    ∃ decimal, value = Arithmetic.ofDecimal decimal := by
  obtain ⟨front, place, rfl, lexed⟩ := scan_lexed tokenized
  rcases List.mem_append.1 present with inFront | atEnd
  · exact lexed _ inFront
  · cases List.mem_singleton.1 atEnd

/-- What was read is over every vocabulary that has the literals of the text, the named constants
and the names of variables. -/
theorem over_of_read {vocabulary : Vocabulary ν} (succeeded : read dialect source = .ok tree)
    (named : ∀ name value, dialect.constant? name = some value → vocabulary.IsConstant value)
    (free : ∀ name, dialect.isVariable name = true → vocabulary.IsVariable name)
    (literals : ∀ tokens, tokenize source = .ok tokens → ∀ value position,
      ⟨.number value, position⟩ ∈ tokens → vocabulary.IsConstant value) :
    tree.Over vocabulary := by
  obtain ⟨tokens, tokenized, parsed⟩ := read_eq_ok_iff.1 succeeded
  obtain ⟨nesting, _, derived⟩ := (parse_tokenized_eq_ok_iff tokenized).1 parsed
  obtain ⟨front, place, rfl, lexed⟩ := scan_lexed tokenized
  rw [(formula_of_lexed lexed place).2] at derived
  refine derived.isOver named free (List.forall_mem_map.2 fun ⟨symbol, position⟩ inFront => ?_)
  cases symbol with
  | number value => exact literals _ tokenized value position (List.mem_append_left _ inFront)
  | identifier name => exact lexed _ inFront
  | _ => trivial

/-- What was read has accepted calls only. -/
theorem callsAccepted_of_read (succeeded : read dialect source = .ok tree) : tree.CallsAccepted :=
  over_everything_iff.1 (over_of_read succeeded (fun _ _ _ => trivial) (fun _ _ => trivial)
    fun _ _ _ _ _ => trivial)

end Expr

end Tangent
