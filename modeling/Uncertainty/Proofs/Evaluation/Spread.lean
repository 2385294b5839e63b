import Uncertainty.Proofs.Binary64.Monotone
import Uncertainty.Proofs.Evaluation.Center

/-!
How uncertainties propagate: a larger one going in never makes a smaller one come out. Every
operation keeps the means and grows with the uncertainties of its operands, by quadrature, by
scaling and by the derivatives of the power. It may skip an uncertainty only where that is zero.
-/
namespace Uncertainty

namespace Measurement

/-- The same mean, with an uncertainty that is no larger. -/
structure NoWider (m m' : Measurement) : Prop where
  mean : m.mean = m'.mean
  sigma : m.sigma.Within m'.sigma

variable {m m' n n' : Measurement} {a a' b b' : Binary64}

theorem combined_within (left : a.Within a') (right : b.Within b') :
    (combined a b).Within (combined a' b') := by
  have clear (x : Binary64) : (x * x).SignClear := Binary64.signClear_square x
  have squares := (left.mul left).add (right.mul right) (clear a) (clear a') (clear b) (clear b')
  exact squares.sqrt ((clear a').add (clear b'))

theorem weighed_within (derivative : Binary64) (within : a.Within a') :
    (if a.isZero then .zero else derivative * a : Binary64).Within
      (if a'.isZero then .zero else derivative * a') :=
  .unless_zero (Binary64.mul_nan derivative)
    (fun _ _ within => (Binary64.Within.refl derivative).mul within) within

namespace NoWider

theorem refl (m : Measurement) : m.NoWider m :=
  ⟨rfl, .refl _⟩

theorem relativeSigma (noWider : m.NoWider m') : m.relativeSigma.Within m'.relativeSigma := by
  unfold Measurement.relativeSigma
  rw [noWider.mean]
  exact .unless_zero rfl (fun _ _ within => within.div_right _) noWider.sigma

theorem neg (noWider : m.NoWider m') : m.neg.NoWider m'.neg :=
  ⟨congrArg (- ·) noWider.mean, noWider.sigma⟩

theorem add (left : m.NoWider m') (right : n.NoWider n') : (m.add n).NoWider (m'.add n') :=
  ⟨congrArg₂ (· + ·) left.mean right.mean, combined_within left.sigma right.sigma⟩

theorem sub (left : m.NoWider m') (right : n.NoWider n') : (m.sub n).NoWider (m'.sub n') :=
  ⟨congrArg₂ (· - ·) left.mean right.mean, combined_within left.sigma right.sigma⟩

theorem withRelative (mean : Binary64) (left : m.NoWider m') (right : n.NoWider n') :
    (withRelative mean m n).NoWider (Measurement.withRelative mean m' n') :=
  ⟨rfl, (combined_within left.relativeSigma right.relativeSigma).mul (.refl mean.abs)⟩

theorem mul (left : m.NoWider m') (right : n.NoWider n') : (m.mul n).NoWider (m'.mul n') := by
  unfold Measurement.mul
  rw [left.mean, right.mean]
  exact left.withRelative _ right

theorem div (left : m.NoWider m') (right : n.NoWider n') : (m.div n).NoWider (m'.div n') := by
  unfold Measurement.div
  rw [left.mean, right.mean]
  exact left.withRelative _ right

/-- The derivatives of a power depend on the means alone. -/
theorem pow (left : m.NoWider m') (right : n.NoWider n') : (m.pow n).NoWider (m'.pow n') := by
  unfold Measurement.pow
  rw [left.mean, right.mean]
  exact ⟨rfl, combined_within (weighed_within _ left.sigma) (weighed_within _ right.sigma)⟩

theorem addNumber (noWider : m.NoWider m') (k : Binary64) :
    (m.addNumber k).NoWider (m'.addNumber k) :=
  ⟨congrArg (· + k) noWider.mean, noWider.sigma⟩

theorem subNumber (noWider : m.NoWider m') (k : Binary64) :
    (m.subNumber k).NoWider (m'.subNumber k) :=
  ⟨congrArg (· - k) noWider.mean, noWider.sigma⟩

theorem numberSub (k : Binary64) (noWider : m.NoWider m') :
    (numberSub k m).NoWider (Measurement.numberSub k m') :=
  ⟨congrArg (k - ·) noWider.mean, noWider.sigma⟩

theorem mulNumber (noWider : m.NoWider m') (k : Binary64) :
    (m.mulNumber k).NoWider (m'.mulNumber k) :=
  ⟨congrArg (· * k) noWider.mean, noWider.sigma.mul (.refl k.abs)⟩

theorem divNumber (noWider : m.NoWider m') (k : Binary64) :
    (m.divNumber k).NoWider (m'.divNumber k) :=
  ⟨congrArg (· / k) noWider.mean, noWider.sigma.div_right k.abs⟩

end NoWider

end Measurement

namespace Value

/-- The same plain number of one kind, or measurements of which the first is no wider. -/
inductive NoWider : Value → Value → Prop where
  | positive (x : Binary64) : NoWider (positive x) (positive x)
  | number (x : Binary64) : NoWider (number x) (number x)
  | measurement {m m' : Measurement} (noWider : m.NoWider m') :
      NoWider (measurement m) (measurement m')

theorem not_isPlain_measurement (m : Measurement) (x : Binary64) :
    ¬ (measurement m).IsPlain x := by
  rintro (same | same) <;> cases same

namespace NoWider

variable {x x' y y' value value' : Value} {base : Binary64} {make : Binary64 → Value}

theorem refl (x : Value) : x.NoWider x := by
  cases x with
  | positive x => exact .positive x
  | number x => exact .number x
  | measurement m => exact .measurement (.refl m)

theorem negate (noWider : x.NoWider x') : x.negate.NoWider x'.negate := by
  cases noWider with
  | positive | number => exact .refl _
  | measurement noWider => exact .measurement noWider.neg

theorem lift (noWider : x.NoWider x') : x.lift.NoWider x'.lift := by
  cases noWider with
  | positive | number => exact .refl _
  | measurement noWider => exact noWider

theorem add (left : x.NoWider x') (right : y.NoWider y') : (x.add y).NoWider (x'.add y') := by
  cases left with
  | positive a | number a =>
    cases right with
    | positive | number => exact .refl _
    | measurement right => exact .measurement (right.addNumber a)
  | measurement left =>
    cases right with
    | positive b | number b => exact .measurement (left.addNumber b)
    | measurement right => exact .measurement (left.add right)

theorem subtract (left : x.NoWider x') (right : y.NoWider y') :
    (x.subtract y).NoWider (x'.subtract y') := by
  cases left with
  | positive a | number a =>
    cases right with
    | positive | number => exact .refl _
    | measurement right => exact .measurement (right.numberSub a)
  | measurement left =>
    cases right with
    | positive b | number b => exact .measurement (left.subNumber b)
    | measurement right => exact .measurement (left.sub right)

theorem multiply (left : x.NoWider x') (right : y.NoWider y') :
    (x.multiply y).NoWider (x'.multiply y') := by
  cases left with
  | positive a | number a =>
    cases right with
    | positive | number => exact .refl _
    | measurement right => exact .measurement (right.mulNumber a)
  | measurement left =>
    cases right with
    | positive b | number b => exact .measurement (left.mulNumber b)
    | measurement right => exact .measurement (left.mul right)

theorem divide (left : x.NoWider x') (right : y.NoWider y') :
    (x.divide y).NoWider (x'.divide y') := by
  cases left with
  | positive a | number a =>
    cases right with
    | positive | number => exact .refl _
    | measurement right => exact .measurement ((Measurement.NoWider.refl _).div right)
  | measurement left =>
    cases right with
    | positive b | number b => exact .measurement (left.divNumber b)
    | measurement right => exact .measurement (left.div right)

theorem powerOf (right : y.NoWider y') (raised : powerOf make base y = .ok value)
    (raised' : Value.powerOf make base y' = .ok value') : value.NoWider value' := by
  cases right with
  | positive | number =>
    cases raised.symm.trans raised'
    exact .refl _
  | measurement right =>
    rcases powerOf_ok raised with ⟨n, isN, -, rfl⟩ | ⟨k, plain, -⟩
    · rcases powerOf_ok raised' with ⟨n', isN', -, rfl⟩ | ⟨k, plain, -⟩
      · cases isN
        cases isN'
        exact .measurement ((Measurement.NoWider.refl _).pow right)
      · exact absurd plain (not_isPlain_measurement _ k)
    · exact absurd plain (not_isPlain_measurement _ k)

theorem power (left : x.NoWider x') (right : y.NoWider y') (raised : x.power y = .ok value)
    (raised' : x'.power y' = .ok value') : value.NoWider value' := by
  cases left with
  | positive | number => exact right.powerOf raised raised'
  | measurement left =>
    rcases power_ok raised with ⟨m, isM, -, rfl⟩ | ⟨base, n, plain, -⟩ | ⟨base, k, plain, -⟩
    · rcases power_ok raised' with ⟨m', isM', -, rfl⟩ | ⟨base, n, plain, -⟩ | ⟨base, k, plain, -⟩
      · cases isM
        cases isM'
        exact .measurement (left.pow right.lift)
      all_goals exact absurd plain (not_isPlain_measurement _ base)
    all_goals exact absurd plain (not_isPlain_measurement _ base)

/-- Here the uncertainty comes in. -/
theorem plusMinus {sigma sigma' : Binary64} (left : x.NoWider x') (within : sigma.Within sigma')
    (made : x.plusMinus (Value.positive sigma) = .ok value)
    (made' : x'.plusMinus (Value.positive sigma') = .ok value') : value.NoWider value' := by
  obtain ⟨mean, _, plain, ⟨⟩, -, rfl⟩ := plusMinus_ok made
  obtain ⟨mean', _, plain', ⟨⟩, -, rfl⟩ := plusMinus_ok made'
  refine .measurement ⟨?_, within⟩
  cases left with
  | positive | number => exact plain.center_eq.symm.trans plain'.center_eq
  | measurement => exact absurd plain (not_isPlain_measurement _ mean)

end NoWider

end Value

open Value in
/-- Of an operation other than the one that brings uncertainties in. -/
theorem Operator.apply_noWider {operator : Operator} {x x' y y' value value' : Value}
    (noPlusMinus : operator ≠ .plusMinus) (left : x.NoWider x') (right : y.NoWider y')
    (applied : operator.apply x y = .ok value) (applied' : operator.apply x' y' = .ok value') :
    value.NoWider value' := by
  cases operator with
  | add =>
    cases applied
    cases applied'
    exact left.add right
  | sub =>
    cases applied
    cases applied'
    exact left.subtract right
  | mul =>
    cases applied
    cases applied'
    exact left.multiply right
  | div =>
    cases applied
    cases applied'
    exact left.divide right
  | pow => exact left.power right applied applied'
  | plusMinus => exact absurd rfl noPlusMinus

theorem Token.value_congr {token token' : Token} {value value' : Value}
    (same : token.lexeme = token'.lexeme) (valued : token.value = .ok value)
    (valued' : token'.value = .ok value') : value = value' := by
  unfold Token.value at valued valued'
  rw [← same] at valued'
  cases spelled : token.lexeme with
  | number =>
    rw [spelled] at valued valued'
    cases valued.symm.trans valued'
    rfl
  | data =>
    rw [spelled] at valued valued'
    cases valued.symm.trans valued'
    rfl
  | symbol symbol =>
    rw [spelled] at valued valued'
    cases symbol <;> cases valued <;> cases valued' <;> rfl

namespace Expr

variable {tree other : Expr} {value value' : Value} {m m' : Measurement}

/-- The trees are the same but for what stands behind `±`, and there no uncertainty of the first is
larger than the one in its place in the second. The offsets of tokens are of no account. -/
inductive NoMoreUncertain : Expr → Expr → Prop where
  | atom {token token' : Token} (same : token.lexeme = token'.lexeme) :
      NoMoreUncertain (.atom token) (.atom token')
  | negation {sign sign' : Token} {x x' : Expr} (same : sign.lexeme = sign'.lexeme)
      (operand : NoMoreUncertain x x') : NoMoreUncertain (.group sign [x]) (.group sign' [x'])
  | infixed {sign sign' : Token} {x x' y y' : Expr} (same : sign.lexeme = sign'.lexeme)
      (noPlusMinus : sign.lexeme ≠ .symbol .plusMinus) (left : NoMoreUncertain x x')
      (right : NoMoreUncertain y y') : NoMoreUncertain (.group sign [x, y]) (.group sign' [x', y'])
  | uncertain {sign sign' : Token} {x x' y y' : Expr}
      (isPlusMinus : sign.lexeme = .symbol .plusMinus)
      (isPlusMinus' : sign'.lexeme = .symbol .plusMinus) (left : NoMoreUncertain x x')
      (sigma : ∀ s s', y.evaluate = .ok (.positive s) → y'.evaluate = .ok (.positive s') →
        s.atMost s' = true) :
      NoMoreUncertain (.group sign [x, y]) (.group sign' [x', y'])

theorem NoMoreUncertain.noWider (related : NoMoreUncertain tree other) (formed : tree.WellFormed)
    (formed' : other.WellFormed) (valued : tree.meaning = .ok value)
    (valued' : other.meaning = .ok value') : value.NoWider value' := by
  induction related generalizing value value' with
  | atom same =>
    rw [meaning] at valued valued'
    cases Token.value_congr same valued valued'
    exact .refl value
  | negation _ _ ih =>
    cases formed with
    | negation isMinus formed =>
      cases formed' with
      | negation isMinus' formed' =>
        obtain ⟨x, operandValued, rfl⟩ := (meaning_negation_ok isMinus).mp valued
        obtain ⟨x', operandValued', rfl⟩ := (meaning_negation_ok isMinus').mp valued'
        exact (ih formed formed' operandValued operandValued').negate
  | infixed same noPlusMinus _ _ ihLeft ihRight =>
    cases formed with
    | @infixed _ operator _ _ isOperator leftFormed rightFormed =>
      cases formed' with
      | infixed isOperator' leftFormed' rightFormed' =>
        rw [← same, isOperator] at isOperator'
        obtain ⟨x, y, leftValued, rightValued, applied⟩ := (meaning_infixed_ok isOperator).mp valued
        rw [same] at isOperator
        obtain ⟨x', y', leftValued', rightValued', applied'⟩ :=
          (meaning_infixed_ok isOperator).mp valued'
        refine Operator.apply_noWider ?_ (ihLeft leftFormed leftFormed' leftValued leftValued')
          (ihRight rightFormed rightFormed' rightValued rightValued') applied applied'
        rintro rfl
        rw [← same] at isOperator
        exact noPlusMinus (Operator.eq_plusMinus_iff.mp isOperator)
  | uncertain isPlusMinus isPlusMinus' _ sigma ih =>
    rw [← Operator.eq_plusMinus_iff] at isPlusMinus isPlusMinus'
    obtain ⟨x, y, leftValued, rightValued, made⟩ := (meaning_infixed_ok isPlusMinus).mp valued
    obtain ⟨x', y', leftValued', rightValued', made'⟩ :=
      (meaning_infixed_ok isPlusMinus').mp valued'
    cases formed with
    | infixed _ leftFormed rightFormed =>
      cases formed' with
      | infixed _ leftFormed' rightFormed' =>
        obtain ⟨-, s, -, rfl, -⟩ := Value.plusMinus_ok made
        obtain ⟨-, s', -, rfl, -⟩ := Value.plusMinus_ok made'
        have atMost : s.atMost s' = true := by
          simp only [evaluate_computes] at sigma
          exact sigma s s' rightValued rightValued'
        have clear : s.SignClear := rightFormed.meaning_signClear rightValued
        have clear' : s'.SignClear := rightFormed'.meaning_signClear rightValued'
        exact (ih leftFormed leftFormed' leftValued leftValued').plusMinus
          (clear.within_of_atMost clear' atMost) made made'

/-- Larger uncertainties never make a smaller one, as long as both results have one at all. -/
theorem sigma_atMost_of_noMoreUncertain (formed : tree.WellFormed) (formed' : other.WellFormed)
    (related : NoMoreUncertain tree other) (valued : tree.evaluate = .ok (.measurement m))
    (valued' : other.evaluate = .ok (.measurement m')) (defined : m.sigma.isNan = false)
    (defined' : m'.sigma.isNan = false) : m.sigma.atMost m'.sigma = true := by
  rw [evaluate_computes] at valued valued'
  cases related.noWider formed formed' valued valued' with
  | measurement noWider =>
    have clear : m.sigma.SignClear := formed.meaning_signClear valued
    have clear' : m'.sigma.SignClear := formed'.meaning_signClear valued'
    exact clear.atMost_of_within clear' noWider.sigma defined defined'

/-- The product `(4 ± 0) * (2 ± 1)`, which skips the exact factor, is less uncertain than
`(4 ± 1) * (2 ± 1)`. -/
theorem sigma_atMost_of_exact_factor :
    let numeral (digits : String) := atom ⟨.number ⟨digits, ""⟩, none⟩
    let measured (mean sigma : String) :=
      group ⟨.symbol .plusMinus, none⟩ [numeral mean, numeral sigma]
    let tree (sigma : String) := group ⟨.symbol .star, none⟩ [measured "4" sigma, measured "2" "1"]
    let m : Measurement := ⟨.ofRank false 0x4020000000000000, .ofRank false 0x4010000000000000⟩
    let m' : Measurement := ⟨.ofRank false 0x4020000000000000, .ofRank false 0x4011E3779B97F4A8⟩
    (tree "0").WellFormed ∧ (tree "1").WellFormed ∧ NoMoreUncertain (tree "0") (tree "1") ∧
      (tree "0").evaluate = .ok (.measurement m) ∧ (tree "1").evaluate = .ok (.measurement m') ∧
      m.sigma.isNan = false ∧ m'.sigma.isNan = false ∧ m.sigma.atMost m'.sigma = true := by
  intro numeral measured tree m m'
  have zero : (numeral "0").WellFormed := .number rfl ⟨by simp, by simp, by simp⟩
  have one : (numeral "1").WellFormed := .number rfl ⟨by simp, by simp, by simp⟩
  have two : (numeral "2").WellFormed := .number rfl ⟨by simp, by simp, by simp⟩
  have four : (numeral "4").WellFormed := .number rfl ⟨by simp, by simp, by simp⟩
  have formed : (tree "0").WellFormed :=
    .infixed rfl (.infixed rfl four zero) (.infixed rfl two one)
  have formed' : (tree "1").WellFormed :=
    .infixed rfl (.infixed rfl four one) (.infixed rfl two one)
  have valueOf (digits : String) (x s : Binary64)
      (read : (numeral digits).meaning = .ok (.positive x))
      (valued : (numeral digits).evaluate = .ok (.positive s)) : x = s := by
    rw [evaluate_computes, read] at valued
    cases valued
    rfl
  have readZero : (numeral "0").meaning = .ok (.positive .zero) := by decide +kernel
  have readOne : (numeral "1").meaning = .ok (.positive .one) := by decide +kernel
  have related : NoMoreUncertain (tree "0") (tree "1") := by
    refine .infixed rfl nofun (.uncertain rfl rfl (.atom rfl) ?_)
      (.uncertain rfl rfl (.atom rfl) ?_)
    · intro s s' valued valued'
      rw [← valueOf "0" _ s readZero valued, ← valueOf "1" _ s' readOne valued']
      decide +kernel
    · intro s s' valued valued'
      rw [← valueOf "1" _ s readOne valued, ← valueOf "1" _ s' readOne valued']
      decide +kernel
  have valued : (tree "0").evaluate = .ok (.measurement m) := by
    rw [evaluate_computes]
    decide +kernel
  have valued' : (tree "1").evaluate = .ok (.measurement m') := by
    rw [evaluate_computes]
    decide +kernel
  have defined : m.sigma.isNan = false := by decide +kernel
  have defined' : m'.sigma.isNan = false := by decide +kernel
  exact ⟨formed, formed', related, valued, valued', defined, defined',
    sigma_atMost_of_noMoreUncertain formed formed' related valued valued' defined defined'⟩

end Expr
end Uncertainty
