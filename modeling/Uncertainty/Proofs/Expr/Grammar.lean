import Uncertainty.Expr
import Uncertainty.Operator

/-!
The grammar of expressions, stated apart from the binding powers. An operator belongs to one of four
categories; on the side that it associates to, its operand may be of the operator's own category.

    sum       ::=  product    |  sum ('+' | '-') product
    product   ::=  power      |  product ('*' | '/') power
    power     ::=  uncertain  |  uncertain '^' power
    uncertain ::=  unary      |  uncertain '±' unary
    unary     ::=  atom       |  '-' unary  |  '(' sum ')'
-/
namespace Uncertainty

inductive Category where
  | sum
  | product
  | power
  | uncertain
  | unary
deriving DecidableEq

namespace Category

/-- The category whose phrases are phrases of this one too. -/
def tighter? : Category → Option Category
  | sum => some product
  | product => some power
  | power => some uncertain
  | uncertain => some unary
  | unary => none

def rank : Category → Nat
  | sum => 0
  | product => 1
  | power => 2
  | uncertain => 3
  | unary => 4

theorem rank_tighter {loose tight : Category} (step : loose.tighter? = some tight) :
    tight.rank = loose.rank + 1 := by
  cases loose <;> cases step <;> rfl

theorem exists_tighter {loose tight : Category} (below : loose.rank < tight.rank) :
    ∃ next, loose.tighter? = some next := by
  cases loose with
  | unary => cases tight <;> simp [rank] at below
  | _ => exact ⟨_, rfl⟩

theorem rank_le (category : Category) : category.rank ≤ Category.unary.rank := by
  cases category <;> decide

theorem rank_injective {a b : Category} (same : a.rank = b.rank) : a = b := by
  cases a <;> cases b <;> first | rfl | simp [rank] at same

end Category

namespace Operator

def category : Operator → Category
  | add | sub => .sum
  | mul | div => .product
  | pow => .power
  | plusMinus => .uncertain

def leftCategory : Operator → Category
  | add | sub => .sum
  | mul | div => .product
  | pow | plusMinus => .uncertain

def rightCategory : Operator → Category
  | add | sub => .product
  | mul | div | pow => .power
  | plusMinus => .unary

end Operator

/-- A written expression: what a derivation in the grammar derives, whatever its category. -/
inductive Phrase where
  | atom (token : Token)
  | negation (sign : Token) (operand : Phrase)
  | parens (opening : Token) (inner : Phrase) (closing : Token)
  | infixed (left : Phrase) (sign : Token) (right : Phrase)

namespace Phrase

/-- The tokens of a phrase, in the order of the text. -/
def yield : Phrase → List Token
  | atom token => [token]
  | negation sign operand => sign :: operand.yield
  | parens opening inner closing => opening :: (inner.yield ++ [closing])
  | infixed left sign right => left.yield ++ sign :: right.yield

/-- The expression that a phrase writes; it keeps the tokens and drops the parentheses. -/
def tree : Phrase → Expr
  | atom token => .atom token
  | negation sign operand => .group sign [operand.tree]
  | parens _ inner _ => inner.tree
  | infixed left sign right => .group sign [left.tree, right.tree]

/-- How deeply a phrase nests. A chain of operators nests on its right operands only. -/
def depth : Phrase → Nat
  | atom _ => 1
  | negation _ operand => 1 + operand.depth
  | parens _ inner _ => 1 + inner.depth
  | infixed left _ right => max left.depth (1 + right.depth)

theorem depth_pos (phrase : Phrase) : 1 ≤ phrase.depth := by
  induction phrase <;> simp only [depth] <;> omega

end Phrase

/-- The derivations of a category, one constructor for each form of rule. -/
inductive Derivation : Category → Type where
  | only {loose tight : Category} (step : loose.tighter? = some tight)
      (inner : Derivation tight) : Derivation loose
  | infixed {category : Category} (operator : Operator) (rule : operator.category = category)
      (left : Derivation operator.leftCategory) (sign : Token)
      (spelled : Operator.ofLexeme? sign.lexeme = some operator)
      (right : Derivation operator.rightCategory) : Derivation category
  | atom (token : Token) (isAtom : token.lexeme.isAtom) : Derivation .unary
  | negation (sign : Token) (isMinus : sign.lexeme = .symbol .minus)
      (operand : Derivation .unary) : Derivation .unary
  | parens (opening : Token) (opens : opening.lexeme = .symbol .leftParen)
      (inner : Derivation .sum) (closing : Token)
      (closes : closing.lexeme = .symbol .rightParen) : Derivation .unary

namespace Derivation

def phrase {category : Category} : Derivation category → Phrase
  | only _ inner => inner.phrase
  | infixed _ _ left sign _ right => .infixed left.phrase sign right.phrase
  | atom token _ => .atom token
  | negation sign _ operand => .negation sign operand.phrase
  | parens opening _ inner closing _ => .parens opening inner.phrase closing

variable {category : Category}

def yield (derivation : Derivation category) : List Token :=
  derivation.phrase.yield

def tree (derivation : Derivation category) : Expr :=
  derivation.phrase.tree

def depth (derivation : Derivation category) : Nat :=
  derivation.phrase.depth

/-- The operator of a derived phrase binds at least as tightly as its category. -/
theorem rank_le_of_infixed {left right : Phrase} {sign : Token} {operator : Operator}
    (spelled : Operator.ofLexeme? sign.lexeme = some operator)
    (derivation : Derivation category) (shape : derivation.phrase = .infixed left sign right) :
    category.rank ≤ operator.category.rank := by
  induction derivation with
  | only step inner ih =>
    have := Category.rank_tighter step
    have := ih shape
    omega
  | infixed other rule _ sign' spelled' _ =>
    obtain ⟨-, rfl, -⟩ := Phrase.infixed.inj shape
    rw [spelled] at spelled'
    cases spelled'
    exact Nat.le_of_eq (congrArg Category.rank rule).symm
  | atom | negation | parens => cases shape

/-- A derivation can be told from its phrase: which steps lead from a category to a tighter one is
forced. -/
theorem phrase_injective {a b : Derivation category} (same : a.phrase = b.phrase) : a = b := by
  induction a with
  | @only loose tight step inner ih =>
    cases b with
    | only step' inner' =>
      rw [step] at step'
      cases step'
      rw [ih same]
    | infixed operator rule left sign spelled right =>
      have := Category.rank_tighter step
      have := rank_le_of_infixed spelled inner same
      rw [rule] at this
      omega
    | atom | negation | parens => cases step
  | infixed operator rule left sign spelled right ihLeft ihRight =>
    cases b with
    | only step inner =>
      have := Category.rank_tighter step
      have := rank_le_of_infixed spelled inner same.symm
      rw [rule] at this
      omega
    | infixed operator' rule' left' sign' spelled' right' =>
      obtain ⟨sameLeft, rfl, sameRight⟩ := Phrase.infixed.inj same
      rw [spelled] at spelled'
      cases spelled'
      rw [ihLeft sameLeft, ihRight sameRight]
    | atom | negation | parens => cases same
  | atom token isAtom =>
    cases b with
    | only step => cases step
    | atom => cases same; rfl
    | infixed | negation | parens => cases same
  | negation sign isMinus operand ih =>
    cases b with
    | only step => cases step
    | negation sign' isMinus' operand' =>
      obtain ⟨rfl, sameOperand⟩ := Phrase.negation.inj same
      rw [ih sameOperand]
    | infixed | atom | parens => cases same
  | parens opening opens inner closing closes ih =>
    cases b with
    | only step => cases step
    | parens opening' opens' inner' closing' closes' =>
      obtain ⟨rfl, sameInner, rfl⟩ := Phrase.parens.inj same
      rw [ih sameInner]
    | infixed | atom | negation => cases same

/-- A phrase of a category is one of every looser category. -/
theorem exists_loosened {loose tight : Category} (derivation : Derivation tight)
    (below : loose.rank ≤ tight.rank) :
    ∃ loosened : Derivation loose, loosened.phrase = derivation.phrase := by
  by_cases same : loose.rank = tight.rank
  · obtain rfl := Category.rank_injective same
    exact ⟨derivation, rfl⟩
  · obtain ⟨next, step⟩ := Category.exists_tighter (show loose.rank < tight.rank by omega)
    have closer := Category.rank_tighter step
    obtain ⟨loosened, shape⟩ := @exists_loosened next tight derivation (by omega)
    exact ⟨.only step loosened, shape⟩
termination_by tight.rank - loose.rank

theorem yield_inner (derivation : Derivation category) (token : Token)
    (member : token ∈ derivation.yield) : token.lexeme ≠ .symbol .endOfInput := by
  induction derivation with
  | only _ _ ih => exact ih member
  | infixed operator _ left sign spelled right ihLeft ihRight =>
    rcases List.mem_append.mp member with inLeft | inRest
    · exact ihLeft inLeft
    · rcases List.mem_cons.mp inRest with rfl | inRight
      · intro ends
        rw [ends] at spelled
        cases spelled
      · exact ihRight inRight
  | atom atomic isAtom =>
    obtain rfl := List.mem_singleton.mp member
    intro ends
    simp [ends, Lexeme.isAtom] at isAtom
  | negation sign isMinus operand ih =>
    rcases List.mem_cons.mp member with rfl | inOperand
    · simp [isMinus]
    · exact ih inOperand
  | parens opening opens inner closing closes ih =>
    rcases List.mem_cons.mp member with rfl | inRest
    · simp [opens]
    · rcases List.mem_append.mp inRest with inInner | inClosing
      · exact ih inInner
      · obtain rfl := List.mem_singleton.mp inClosing
        simp [closes]

end Derivation
end Uncertainty
