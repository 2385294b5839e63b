import Uncertainty.Proofs.Binary64.Finite
import Uncertainty.Proofs.Evaluation.Center

/-!
Exact measurements. An uncertainty of zero stays zero through every operation, as long as the means
are finite: where zero would meet an infinity or another zero on its way into an uncertainty, the
mean is not finite either. So a tree whose uncertainties are all zero has no other one in its value.
-/
namespace Uncertainty

namespace Measurement

variable {x y : Measurement}

theorem combined_zero : combined .zero .zero = .zero := by
  have square : Binary64.zero * .zero = .zero := Binary64.zero_mul_abs (x := .zero) rfl
  rw [combined, sumOfSquares, square]
  exact congrArg Binary64.sqrt (Binary64.ofQuotient_zero 1)

theorem relativeSigma_exact (exact : x.sigma = .zero) : x.relativeSigma = .zero :=
  if_pos (congrArg Binary64.isZero exact)

theorem sigma_withRelative {mean : Binary64} (left : x.sigma = .zero) (right : y.sigma = .zero)
    (isFinite : mean.isFinite = true) : (withRelative mean x y).sigma = .zero := by
  rw [withRelative, relativeSigma_exact left, relativeSigma_exact right, combined_zero]
  exact Binary64.zero_mul_abs isFinite

theorem sigma_mulNumber {k : Binary64} (exact : x.sigma = .zero)
    (isFinite : (x.mulNumber k).mean.isFinite = true) : (x.mulNumber k).sigma = .zero := by
  rw [mulNumber, exact]
  exact Binary64.zero_mul_abs (Binary64.isFinite_of_mul isFinite).2

theorem sigma_divNumber {k : Binary64} (exact : x.sigma = .zero)
    (isFinite : (x.divNumber k).mean.isFinite = true) : (x.divNumber k).sigma = .zero := by
  rw [divNumber, exact]
  exact Binary64.zero_div_abs (Binary64.isNan_of_div isFinite) (Binary64.isZero_of_div isFinite)

/-- An uncertainty of zero drops its derivative, be that infinite or undefined. -/
theorem sigma_pow (left : x.sigma = .zero) (right : y.sigma = .zero) :
    (x.pow y).sigma = .zero := by
  unfold pow
  dsimp only
  rw [left, right]
  exact combined_zero

end Measurement

namespace Value

/-- No uncertainty, or one that is zero. -/
def IsExact : Value → Prop
  | measurement m => m.sigma = .zero
  | positive _ | number _ => True

/-- A measurement has a finite mean. -/
def HasFiniteMean : Value → Prop
  | measurement m => m.mean.isFinite = true
  | positive _ | number _ => True

namespace IsExact

variable {x y value : Value}

theorem lift (exact : x.IsExact) : x.lift.sigma = .zero := by
  cases x with
  | positive | number => rfl
  | measurement => exact exact

theorem negate (exact : x.IsExact) : x.negate.IsExact := by
  cases x with
  | positive | number => trivial
  | measurement => exact exact

theorem combined {a b : Binary64} (left : a = .zero) (right : b = .zero) :
    Measurement.combined a b = .zero := by
  rw [left, right, Measurement.combined_zero]

theorem add (left : x.IsExact) (right : y.IsExact) : (x.add y).IsExact := by
  cases x with
  | positive | number =>
    cases y with
    | positive | number => trivial
    | measurement => exact right
  | measurement =>
    cases y with
    | positive | number => exact left
    | measurement => exact combined left right

theorem subtract (left : x.IsExact) (right : y.IsExact) : (x.subtract y).IsExact := by
  cases x with
  | positive | number =>
    cases y with
    | positive | number => trivial
    | measurement => exact right
  | measurement =>
    cases y with
    | positive | number => exact left
    | measurement => exact combined left right

theorem multiply (left : x.IsExact) (right : y.IsExact) (mean : (x.multiply y).HasFiniteMean) :
    (x.multiply y).IsExact := by
  cases x with
  | positive | number =>
    cases y with
    | positive | number => trivial
    | measurement => exact Measurement.sigma_mulNumber right mean
  | measurement =>
    cases y with
    | positive | number => exact Measurement.sigma_mulNumber left mean
    | measurement => exact Measurement.sigma_withRelative left right mean

theorem divide (left : x.IsExact) (right : y.IsExact) (mean : (x.divide y).HasFiniteMean) :
    (x.divide y).IsExact := by
  cases x with
  | positive | number =>
    cases y with
    | positive | number => trivial
    | measurement => exact Measurement.sigma_withRelative rfl right mean
  | measurement =>
    cases y with
    | positive | number => exact Measurement.sigma_divNumber left mean
    | measurement => exact Measurement.sigma_withRelative left right mean

theorem power (left : x.IsExact) (right : y.IsExact) (raised : x.power y = .ok value) :
    value.IsExact := by
  rcases power_ok raised with
    ⟨m, rfl, -, rfl⟩ | ⟨base, n, -, rfl, -, rfl⟩ |
    ⟨base, k, -, -, ⟨-, -, rfl⟩ | ⟨-, -, rfl⟩ | ⟨-, -, rfl⟩⟩
  · exact Measurement.sigma_pow left right.lift
  · exact Measurement.sigma_pow rfl right
  all_goals trivial

/-- Here an uncertainty comes in, without a minus sign and of no size. -/
theorem plusMinus (clear : y.SignClear) (isZero : y.center.isZero = true)
    (made : x.plusMinus y = .ok value) : value.IsExact := by
  obtain ⟨mean, sigma, -, rfl, -, rfl⟩ := plusMinus_ok made
  exact Binary64.eq_zero_of_isZero isZero clear

end IsExact

end Value

open Value in
/-- Of an operation other than the one that brings uncertainties in. -/
theorem Operator.apply_isExact {operator : Operator} {x y value : Value}
    (noPlusMinus : operator ≠ .plusMinus) (left : x.IsExact) (right : y.IsExact)
    (applied : operator.apply x y = .ok value) (mean : value.HasFiniteMean) : value.IsExact := by
  cases operator with
  | add =>
    cases applied
    exact left.add right
  | sub =>
    cases applied
    exact left.subtract right
  | mul =>
    cases applied
    exact left.multiply right mean
  | div =>
    cases applied
    exact left.divide right mean
  | pow => exact left.power right applied
  | plusMinus => exact absurd rfl noPlusMinus

namespace Expr

variable {sign : Token} {tree part left right : Expr} {value : Value} {m : Measurement}

/-- Whatever stands behind a `±` and has a value comes to zero. -/
def HasZeroUncertainties (tree : Expr) : Prop :=
  ∀ sign left right, group sign [left, right] ∈ tree.postorder → sign.lexeme = .symbol .plusMinus →
    ∀ value, right.evaluate = .ok value → value.center.isZero = true

/-- Every part of the tree whose value is a measurement has a finite mean. -/
def HasFiniteMeans (tree : Expr) : Prop :=
  ∀ part ∈ tree.postorder, ∀ value, part.evaluate = .ok value → value.HasFiniteMean

namespace HasZeroUncertainties

theorem atom (token : Token) : (atom token).HasZeroUncertainties := by
  intro sign left right member
  cases List.mem_singleton.mp member

theorem infixed (zeroLeft : left.HasZeroUncertainties) (zeroRight : right.HasZeroUncertainties)
    (here : sign.lexeme = .symbol .plusMinus →
      ∀ value, right.meaning = .ok value → value.center.isZero = true) :
    (group sign [left, right]).HasZeroUncertainties := by
  intro other l r member isPlusMinus value valued
  rcases mem_postorder_infixed.mp member with inLeft | inRight | itself
  · exact zeroLeft other l r inLeft isPlusMinus value valued
  · exact zeroRight other l r inRight isPlusMinus value valued
  · cases itself
    rw [evaluate_computes] at valued
    exact here isPlusMinus value valued

theorem inside (zero : tree.HasZeroUncertainties)
    (within : part.postorder ⊆ tree.postorder) : part.HasZeroUncertainties :=
  fun sign left right member => zero sign left right (within member)

end HasZeroUncertainties

namespace HasFiniteMeans

theorem atom {token : Token} (formed : (atom token).WellFormed) :
    (Expr.atom token).HasFiniteMeans := by
  intro part member value valued
  obtain rfl := List.mem_singleton.mp member
  obtain ⟨x, -, read⟩ := formed.value_eq
  rw [evaluate_computes, meaning, read] at valued
  cases valued
  trivial

theorem infixed (finiteLeft : left.HasFiniteMeans) (finiteRight : right.HasFiniteMeans)
    (here : ∀ value, (group sign [left, right]).meaning = .ok value → value.HasFiniteMean) :
    (group sign [left, right]).HasFiniteMeans := by
  intro part member value valued
  rcases mem_postorder_infixed.mp member with inLeft | inRight | rfl
  · exact finiteLeft part inLeft value valued
  · exact finiteRight part inRight value valued
  · rw [evaluate_computes] at valued
    exact here value valued

theorem inside (finite : tree.HasFiniteMeans)
    (within : part.postorder ⊆ tree.postorder) : part.HasFiniteMeans :=
  fun other member => finite other (within member)

end HasFiniteMeans

theorem WellFormed.isExact_of_meaning (formed : tree.WellFormed)
    (zero : tree.HasZeroUncertainties) (finite : tree.HasFiniteMeans)
    (valued : tree.meaning = .ok value) : value.IsExact := by
  induction formed using byForm generalizing value with
  | atom token formed =>
    obtain ⟨x, -, read⟩ := formed.value_eq
    rw [meaning, read] at valued
    cases valued
    trivial
  | negation sign operand isMinus _ ih =>
    obtain ⟨x, operandValued, rfl⟩ := (meaning_negation_ok isMinus).mp valued
    have within : operand.postorder ⊆ (group sign [operand]).postorder :=
      fun _ member => mem_postorder_negation.mpr (.inl member)
    exact (ih (zero.inside within) (finite.inside within) operandValued).negate
  | infixed sign operator left right isOperator _ rightFormed ihLeft ihRight =>
    obtain ⟨x, y, leftValued, rightValued, applied⟩ := (meaning_infixed_ok isOperator).mp valued
    have here : group sign [left, right] ∈ (group sign [left, right]).postorder :=
      mem_postorder_infixed.mpr (.inr (.inr rfl))
    by_cases isPlusMinus : operator = .plusMinus
    · subst isPlusMinus
      have isZero : y.center.isZero = true :=
        zero sign left right here (Operator.eq_plusMinus_iff.mp isOperator) y
          (by rwa [evaluate_computes])
      exact .plusMinus (rightFormed.meaning_signClear rightValued) isZero applied
    · have inLeft : left.postorder ⊆ (group sign [left, right]).postorder :=
        fun _ member => mem_postorder_infixed.mpr (.inl member)
      have inRight : right.postorder ⊆ (group sign [left, right]).postorder :=
        fun _ member => mem_postorder_infixed.mpr (.inr (.inl member))
      have exactLeft := ihLeft (zero.inside inLeft) (finite.inside inLeft) leftValued
      have exactRight := ihRight (zero.inside inRight) (finite.inside inRight) rightValued
      have mean : value.HasFiniteMean := finite _ here value (by rwa [evaluate_computes])
      exact Operator.apply_isExact isPlusMinus exactLeft exactRight applied mean

/-- If all uncertainties of a tree are zero and all means in it are finite, then its value has no
uncertainty but zero. -/
theorem sigma_zero_of_evaluate (formed : tree.WellFormed) (zero : tree.HasZeroUncertainties)
    (finite : tree.HasFiniteMeans) (valued : tree.evaluate = .ok (.measurement m)) :
    m.sigma = .zero := by
  rw [evaluate_computes] at valued
  exact formed.isExact_of_meaning zero finite valued

/-- The quotient `(2 ± 0) / (1 / 0)` by infinity is exact. -/
theorem sigma_zero_of_infinite_divisor :
    let numeral (digits : String) := atom ⟨.number ⟨digits, ""⟩, none⟩
    let measured := group ⟨.symbol .plusMinus, none⟩ [numeral "2", numeral "0"]
    let infinite := group ⟨.symbol .slash, none⟩ [numeral "1", numeral "0"]
    let tree := group ⟨.symbol .slash, none⟩ [measured, infinite]
    let m := Measurement.exact .zero
    infinite.evaluate = .ok (.positive .infinity) ∧ tree.WellFormed ∧ tree.HasZeroUncertainties ∧
      tree.HasFiniteMeans ∧ tree.evaluate = .ok (.measurement m) ∧ m.sigma = .zero := by
  intro numeral measured infinite tree m
  simp only [evaluate_computes]
  have two : (numeral "2").WellFormed := .number rfl ⟨by simp, by simp, by simp⟩
  have one : (numeral "1").WellFormed := .number rfl ⟨by simp, by simp, by simp⟩
  have nil : (numeral "0").WellFormed := .number rfl ⟨by simp, by simp, by simp⟩
  have formed : tree.WellFormed := .infixed rfl (.infixed rfl two nil) (.infixed rfl one nil)
  have readNil : (numeral "0").meaning = .ok (.positive .zero) := by decide +kernel
  have readTwo : measured.meaning = .ok (.measurement ⟨.ofRank false 0x4000000000000000, .zero⟩) := by
    decide +kernel
  have readInfinite : infinite.meaning = .ok (.positive .infinity) := by decide +kernel
  have valued : tree.meaning = .ok (.measurement m) := by decide +kernel
  have zero : tree.HasZeroUncertainties := by
    refine .infixed (.infixed (.atom _) (.atom _) fun _ value read => ?_)
      (.infixed (.atom _) (.atom _) nofun) nofun
    cases read.symm.trans readNil
    rfl
  have finite : tree.HasFiniteMeans := by
    refine .infixed (.infixed (.atom two) (.atom nil) fun value read => ?_)
      (.infixed (.atom one) (.atom nil) fun value read => ?_) fun value read => ?_
    · cases read.symm.trans readTwo
      rfl
    · cases read.symm.trans readInfinite
      trivial
    · cases read.symm.trans valued
      rfl
  refine ⟨readInfinite, formed, zero, finite, valued, sigma_zero_of_evaluate formed zero finite ?_⟩
  rwa [evaluate_computes]

end Expr
end Uncertainty
