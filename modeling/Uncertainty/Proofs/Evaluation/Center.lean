import Uncertainty.Proofs.Evaluation.Kind

/-!
The central values: a plain number itself, or the mean of a measurement. Each operation makes the
central value of its result from those of its operands, in the same way for all kinds of them. So
the central value of a tree is what it comes to without any uncertainties.
-/
namespace Uncertainty

namespace Value

def center : Value → Binary64
  | positive x | number x => x
  | measurement m => m.mean

end Value

namespace Operator

/-- What an operator makes of plain numbers. -/
def center : Operator → Binary64 → Binary64 → Binary64
  | add, x, y => x + y
  | sub, x, y => x - y
  | mul, x, y => x * y
  | div, x, y => x / y
  | pow, x, y => x.pow y
  | plusMinus, x, _ => x

end Operator

namespace Token

def center (token : Token) : Binary64 :=
  match token.value with
  | .ok value => value.center
  | .error _ => .nan

end Token

namespace Expr

/-- What a well-formed tree comes to in plain numbers. -/
def center : Expr → Binary64
  | atom token => token.center
  | group _ [x] => -x.center
  | group sign [x, y] =>
    match Operator.ofLexeme? sign.lexeme with
    | some operator => operator.center x.center y.center
    | none => .nan
  | group _ _ => .nan

/-- The tree with only the value in the place of each value with an uncertainty. -/
def withoutUncertainties : Expr → Expr
  | group sign [x] => group sign [x.withoutUncertainties]
  | group sign [x, y] =>
    if sign.lexeme = .symbol .plusMinus then x.withoutUncertainties
    else group sign [x.withoutUncertainties, y.withoutUncertainties]
  | tree => tree

/-- The trees are the same, the uncertainties in them and the offsets of their tokens aside. -/
inductive SameButUncertainties : Expr → Expr → Prop where
  | atom {token token' : Token} (same : token.lexeme = token'.lexeme) :
      SameButUncertainties (.atom token) (.atom token')
  | negation {sign sign' : Token} {x x' : Expr} (same : sign.lexeme = sign'.lexeme)
      (operand : SameButUncertainties x x') :
      SameButUncertainties (.group sign [x]) (.group sign' [x'])
  | infixed {sign sign' : Token} {x x' y y' : Expr} (same : sign.lexeme = sign'.lexeme)
      (left : SameButUncertainties x x') (right : SameButUncertainties y y') :
      SameButUncertainties (.group sign [x, y]) (.group sign' [x', y'])
  | uncertain {sign sign' : Token} {x x' y y' : Expr}
      (isPlusMinus : sign.lexeme = .symbol .plusMinus)
      (isPlusMinus' : sign'.lexeme = .symbol .plusMinus) (left : SameButUncertainties x x') :
      SameButUncertainties (.group sign [x, y]) (.group sign' [x', y'])

end Expr

namespace Value

variable {x y value : Value}

theorem IsPlain.center_eq {number : Binary64} (plain : x.IsPlain number) : x.center = number := by
  rcases plain with rfl | rfl <;> rfl

theorem isPlain_center (plain : x.kind ≠ .measurement) : x.IsPlain x.center := by
  cases x with
  | positive => exact .inl rfl
  | number => exact .inr rfl
  | measurement => exact absurd rfl plain

theorem mean_lift (x : Value) : x.lift.mean = x.center := by
  cases x <;> rfl

theorem center_negate (x : Value) : x.negate.center = -x.center := by
  cases x <;> rfl

theorem center_add (x y : Value) : (x.add y).center = x.center + y.center := by
  cases x with
  | positive | number =>
    cases y with
    | positive | number => rfl
    | measurement => exact Binary64.add_comm ..
  | measurement => cases y <;> rfl

theorem center_subtract (x y : Value) : (x.subtract y).center = x.center - y.center := by
  cases x <;> cases y <;> rfl

theorem center_multiply (x y : Value) : (x.multiply y).center = x.center * y.center := by
  cases x with
  | positive | number =>
    cases y with
    | positive | number => rfl
    | measurement => exact Binary64.mul_comm ..
  | measurement => cases y <;> rfl

theorem center_divide (x y : Value) : (x.divide y).center = x.center / y.center := by
  cases x <;> cases y <;> rfl

theorem center_power (raised : x.power y = .ok value) : value.center = x.center.pow y.center := by
  rcases power_ok raised with
    ⟨m, rfl, -, rfl⟩ | ⟨base, n, plain, rfl, -, rfl⟩ |
    ⟨base, k, plain, exponent, ⟨-, -, rfl⟩ | ⟨-, -, rfl⟩ | ⟨-, -, rfl⟩⟩
  · rw [← mean_lift y]
    rfl
  · rw [plain.center_eq]
    rfl
  all_goals
    rw [plain.center_eq, exponent.center_eq]
    rfl

theorem center_plusMinus (made : x.plusMinus y = .ok value) : value.center = x.center := by
  obtain ⟨mean, sigma, plain, rfl, -, rfl⟩ := plusMinus_ok made
  rw [plain.center_eq]
  rfl

end Value

theorem Token.center_congr {token token' : Token} (same : token.lexeme = token'.lexeme) :
    token.center = token'.center := by
  unfold Token.center Token.value
  rw [same]
  cases token'.lexeme with
  | number => rfl
  | data => rfl
  | symbol symbol => cases symbol <;> rfl

theorem Operator.center_apply {operator : Operator} {x y value : Value}
    (applied : operator.apply x y = .ok value) :
    value.center = operator.center x.center y.center := by
  cases operator with
  | add =>
    cases applied
    exact Value.center_add x y
  | sub =>
    cases applied
    exact Value.center_subtract x y
  | mul =>
    cases applied
    exact Value.center_multiply x y
  | div =>
    cases applied
    exact Value.center_divide x y
  | pow => exact Value.center_power applied
  | plusMinus => exact Value.center_plusMinus applied

namespace Expr

variable {sign : Token} {operator : Operator} {tree other left right : Expr} {value : Value}

theorem center_infixed (isOperator : Operator.ofLexeme? sign.lexeme = some operator) :
    (group sign [left, right]).center = operator.center left.center right.center := by
  rw [center, isOperator]

theorem WellFormed.center_of_meaning (formed : tree.WellFormed)
    (valued : tree.meaning = .ok value) : value.center = tree.center := by
  induction formed using byForm generalizing value with
  | atom token =>
    rw [meaning] at valued
    rw [center, Token.center, valued]
  | negation _ _ isMinus _ ih =>
    obtain ⟨x, operandValued, rfl⟩ := (meaning_negation_ok isMinus).mp valued
    rw [Value.center_negate, ih operandValued, center]
  | infixed _ _ _ _ isOperator _ _ ihLeft ihRight =>
    obtain ⟨x, y, leftValued, rightValued, applied⟩ := (meaning_infixed_ok isOperator).mp valued
    rw [center_infixed isOperator, ← ihLeft leftValued, ← ihRight rightValued]
    exact Operator.center_apply applied

namespace SameButUncertainties

theorem kind_eq (same : SameButUncertainties tree other) : tree.kind = other.kind := by
  induction same with
  | atom => rfl
  | negation _ _ ih => rw [kind, kind, ih]
  | infixed sameSign _ _ ihLeft ihRight => rw [kind, kind, sameSign, ihLeft, ihRight]
  | uncertain isPlusMinus isPlusMinus' =>
    rw [kind_infixed (Operator.eq_plusMinus_iff.mpr isPlusMinus),
      kind_infixed (Operator.eq_plusMinus_iff.mpr isPlusMinus')]
    rfl

theorem center_eq (same : SameButUncertainties tree other) : tree.center = other.center := by
  induction same with
  | atom sameToken => exact Token.center_congr sameToken
  | negation _ _ ih => rw [center, center, ih]
  | infixed sameSign _ _ ihLeft ihRight => rw [center, center, sameSign, ihLeft, ihRight]
  | uncertain isPlusMinus isPlusMinus' _ ih =>
    rw [center_infixed (Operator.eq_plusMinus_iff.mpr isPlusMinus),
      center_infixed (Operator.eq_plusMinus_iff.mpr isPlusMinus')]
    exact ih

end SameButUncertainties

namespace WellFormed

theorem withoutUncertainties (formed : tree.WellFormed) : tree.withoutUncertainties.WellFormed := by
  induction formed using byForm with
  | atom _ formed => exact formed
  | negation _ _ isMinus _ ih => exact .negation isMinus ih
  | infixed _ _ _ _ isOperator _ _ ihLeft ihRight =>
    rw [Expr.withoutUncertainties]
    split
    case isTrue => exact ihLeft
    case isFalse => exact .infixed isOperator ihLeft ihRight

theorem kind_withoutUncertainties (formed : tree.WellFormed) :
    tree.withoutUncertainties.kind ≠ .measurement := by
  induction formed using byForm with
  | atom => exact Kind.noConfusion
  | negation _ _ _ _ ih =>
    rw [Expr.withoutUncertainties, kind]
    exact Kind.negated_ne_measurement ih
  | infixed _ _ _ _ isOperator _ _ ihLeft ihRight =>
    rw [Expr.withoutUncertainties]
    split
    case isTrue => exact ihLeft
    case isFalse noPlusMinus =>
      rw [kind_infixed isOperator]
      refine Operator.kind_ne_measurement (fun same => noPlusMinus ?_) ihLeft ihRight
      rwa [same, Operator.eq_plusMinus_iff] at isOperator

theorem center_withoutUncertainties (formed : tree.WellFormed) :
    tree.withoutUncertainties.center = tree.center := by
  induction formed using byForm with
  | atom => rfl
  | negation _ _ _ _ ih => rw [Expr.withoutUncertainties, center, ih, center]
  | infixed _ _ _ _ isOperator _ _ ihLeft ihRight =>
    rw [Expr.withoutUncertainties, center_infixed isOperator]
    split
    case isTrue isPlusMinus =>
      rw [Operator.eq_plusMinus_iff.mpr isPlusMinus] at isOperator
      cases isOperator
      exact ihLeft
    case isFalse => rw [center_infixed isOperator, ihLeft, ihRight]

end WellFormed

/-- Central values do not depend on uncertainties: trees that differ in these alone have values of
one kind and with one central value, and it is the value of the tree without them. -/
theorem center_of_evaluate (formed : tree.WellFormed) (valued : tree.evaluate = .ok value) :
    (∀ other value', other.WellFormed → SameButUncertainties tree other →
      other.evaluate = .ok value' → value'.kind = value.kind ∧ value'.center = value.center) ∧
    ∀ plain, tree.withoutUncertainties.evaluate = .ok plain → plain.IsPlain value.center := by
  simp only [evaluate_computes] at valued ⊢
  have sameCenter := formed.center_of_meaning valued
  have sameKind := (formed.typed_of_meaning valued).2
  constructor
  · intro other value' otherFormed same otherValued
    rw [(otherFormed.typed_of_meaning otherValued).2, otherFormed.center_of_meaning otherValued,
      sameKind, sameCenter, same.kind_eq, same.center_eq]
    exact ⟨rfl, rfl⟩
  · intro plain plainValued
    have plainFormed := formed.withoutUncertainties
    have plainKind := (plainFormed.typed_of_meaning plainValued).2
    have plainCenter := plainFormed.center_of_meaning plainValued
    rw [formed.center_withoutUncertainties, ← sameCenter] at plainCenter
    rw [← plainCenter]
    refine Value.isPlain_center ?_
    rw [plainKind]
    exact formed.kind_withoutUncertainties

/-- The quotients `1 / (4 ± 1)`, `1 / (4 ± 2)` and `1 / 4` have one central value. -/
theorem center_of_quotient :
    let numeral (digits : String) := atom ⟨.number ⟨digits, ""⟩, none⟩
    let tree (sigma : String) := group ⟨.symbol .slash, none⟩
      [numeral "1", group ⟨.symbol .plusMinus, none⟩ [numeral "4", numeral sigma]]
    let quarter := Binary64.ofRank false 0x3FD0000000000000
    let value := Value.measurement ⟨quarter, .ofRank false 0x3FB0000000000000⟩
    let value' := Value.measurement ⟨quarter, .ofRank false 0x3FC0000000000000⟩
    let plain := Value.positive quarter
    (tree "1").WellFormed ∧ (tree "1").evaluate = .ok value ∧
    (tree "2").WellFormed ∧ SameButUncertainties (tree "1") (tree "2") ∧
    (tree "2").evaluate = .ok value' ∧ (tree "1").withoutUncertainties.evaluate = .ok plain ∧
    (value'.kind = value.kind ∧ value'.center = value.center) ∧ plain.IsPlain value.center := by
  intro numeral tree quarter value value' plain
  have one : Literal.IsDecimal ⟨"1", ""⟩ := ⟨by simp, by simp, by simp⟩
  have two : Literal.IsDecimal ⟨"2", ""⟩ := ⟨by simp, by simp, by simp⟩
  have four : Literal.IsDecimal ⟨"4", ""⟩ := ⟨by simp, by simp, by simp⟩
  have formed : (tree "1").WellFormed :=
    .infixed rfl (.number rfl one) (.infixed rfl (.number rfl four) (.number rfl one))
  have formed' : (tree "2").WellFormed :=
    .infixed rfl (.number rfl one) (.infixed rfl (.number rfl four) (.number rfl two))
  have same : SameButUncertainties (tree "1") (tree "2") :=
    .infixed rfl (.atom rfl) (.uncertain rfl rfl (.atom rfl))
  have valued : (tree "1").evaluate = .ok value := by
    rw [evaluate_computes]
    decide +kernel
  have valued' : (tree "2").evaluate = .ok value' := by
    rw [evaluate_computes]
    decide +kernel
  have plainValued : (tree "1").withoutUncertainties.evaluate = .ok plain := by
    rw [evaluate_computes]
    decide +kernel
  obtain ⟨others, plains⟩ := center_of_evaluate formed valued
  exact ⟨formed, valued, formed', same, valued', plainValued, others _ _ formed' same valued',
    plains _ plainValued⟩

end Expr
end Uncertainty
