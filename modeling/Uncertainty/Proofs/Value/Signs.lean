import Uncertainty.Proofs.Binary64.Negation
import Uncertainty.Value

/-!
Order and sign of operands. The operations treat plain numbers and measurements on either side in
different ways, but the laws that rounding leaves hold between all of them: sums and products
commute, and a minus sign moves freely between operands and result. It never gets into an
uncertainty.
-/
namespace Uncertainty

namespace Measurement

variable (x y : Measurement) (k mean : Binary64)

theorem combined_comm (a b : Binary64) : combined a b = combined b a :=
  congrArg Binary64.sqrt (Binary64.add_comm ..)

theorem add_comm : x.add y = y.add x := by
  rw [add, add, Binary64.add_comm, combined_comm]

theorem mul_comm : x.mul y = y.mul x := by
  rw [mul, mul, withRelative, withRelative, Binary64.mul_comm, combined_comm]

/-- The relative uncertainty takes the sign of the mean, which its square forgets. -/
theorem relativeSigma_neg : x.neg.relativeSigma * x.neg.relativeSigma =
    x.relativeSigma * x.relativeSigma := by
  unfold relativeSigma neg
  dsimp only
  split
  case isTrue => rfl
  case isFalse => rw [Binary64.div_neg, Binary64.neg_mul, Binary64.mul_neg, Binary64.neg_neg]

theorem withRelative_neg_left : withRelative mean x.neg y = withRelative mean x y := by
  rw [withRelative, withRelative, combined, combined, sumOfSquares, sumOfSquares, relativeSigma_neg]

theorem withRelative_neg_right : withRelative mean x y.neg = withRelative mean x y := by
  rw [withRelative, withRelative, combined, combined, sumOfSquares, sumOfSquares, relativeSigma_neg]

theorem neg_withRelative : (withRelative mean x y).neg = withRelative (-mean) x y := by
  rw [withRelative, withRelative, Binary64.abs_neg, neg]

theorem neg_mul : x.neg.mul y = (x.mul y).neg := by
  rw [mul, withRelative_neg_left, mul, neg_withRelative, neg, Binary64.neg_mul]

theorem mul_neg : x.mul y.neg = (x.mul y).neg := by
  rw [mul, withRelative_neg_right, mul, neg_withRelative, neg, Binary64.mul_neg]

theorem neg_div : x.neg.div y = (x.div y).neg := by
  rw [div, withRelative_neg_left, div, neg_withRelative, neg, Binary64.neg_div]

theorem div_neg : x.div y.neg = (x.div y).neg := by
  rw [div, withRelative_neg_right, div, neg_withRelative, neg, Binary64.div_neg]

theorem neg_mulNumber : x.neg.mulNumber k = (x.mulNumber k).neg :=
  congrArg (mk · _) (Binary64.neg_mul ..)

theorem mulNumber_neg : x.mulNumber (-k) = (x.mulNumber k).neg := by
  rw [mulNumber, Binary64.abs_neg, Binary64.mul_neg, mulNumber, neg]

theorem neg_divNumber : x.neg.divNumber k = (x.divNumber k).neg :=
  congrArg (mk · _) (Binary64.neg_div ..)

theorem divNumber_neg : x.divNumber (-k) = (x.divNumber k).neg := by
  rw [divNumber, Binary64.abs_neg, Binary64.div_neg, divNumber, neg]

end Measurement

namespace Value

/-- The uncertainty that a value carries, if it is a measurement. -/
def sigma? : Value → Option Binary64
  | measurement m => some m.sigma
  | positive _ | number _ => none

variable (x y : Value)

theorem add_comm : x.add y = y.add x := by
  cases x with
  | positive a =>
    cases y with
    | positive b => exact congrArg positive (Binary64.add_comm a b)
    | number b => exact congrArg number (Binary64.add_comm a b)
    | measurement => rfl
  | number a =>
    cases y with
    | positive b | number b => exact congrArg number (Binary64.add_comm a b)
    | measurement => rfl
  | measurement m =>
    cases y with
    | positive | number => rfl
    | measurement n => exact congrArg measurement (m.add_comm n)

theorem multiply_comm : x.multiply y = y.multiply x := by
  cases x with
  | positive a =>
    cases y with
    | positive b => exact congrArg positive (Binary64.mul_comm a b)
    | number b => exact congrArg number (Binary64.mul_comm a b)
    | measurement => rfl
  | number a =>
    cases y with
    | positive b | number b => exact congrArg number (Binary64.mul_comm a b)
    | measurement => rfl
  | measurement m =>
    cases y with
    | positive | number => rfl
    | measurement n => exact congrArg measurement (m.mul_comm n)

/-- Only a measurement that is subtracted from a number has its operands in the other order. -/
theorem subtract_eq_add_negate : x.subtract y = x.add y.negate := by
  cases x with
  | positive k | number k =>
    cases y with
    | positive | number => rfl
    | measurement m => exact congrArg (fun mean => measurement ⟨mean, m.sigma⟩) (Binary64.add_comm ..)
  | measurement => cases y <;> rfl

theorem negate_multiply : x.negate.multiply y = (x.multiply y).negate := by
  cases x with
  | positive a | number a =>
    cases y with
    | positive b | number b => exact congrArg number (Binary64.neg_mul a b)
    | measurement n => exact congrArg measurement (n.mulNumber_neg a)
  | measurement m =>
    cases y with
    | positive b | number b => exact congrArg measurement (m.neg_mulNumber b)
    | measurement n => exact congrArg measurement (m.neg_mul n)

theorem multiply_negate : x.multiply y.negate = (x.multiply y).negate := by
  rw [multiply_comm, negate_multiply, multiply_comm]

theorem negate_divide : x.negate.divide y = (x.divide y).negate := by
  cases x with
  | positive a | number a =>
    cases y with
    | positive b | number b => exact congrArg number (Binary64.neg_div a b)
    | measurement n => exact congrArg measurement ((Measurement.exact a).neg_div n)
  | measurement m =>
    cases y with
    | positive b | number b => exact congrArg measurement (m.neg_divNumber b)
    | measurement n => exact congrArg measurement (m.neg_div n)

theorem divide_negate : x.divide y.negate = (x.divide y).negate := by
  cases x with
  | positive a | number a =>
    cases y with
    | positive b | number b => exact congrArg number (Binary64.div_neg a b)
    | measurement n => exact congrArg measurement ((Measurement.exact a).div_neg n)
  | measurement m =>
    cases y with
    | positive b | number b => exact congrArg measurement (m.divNumber_neg b)
    | measurement n => exact congrArg measurement (m.div_neg n)

@[simp] theorem sigma?_negate : x.negate.sigma? = x.sigma? := by
  cases x <;> rfl

theorem sigma?_negate_add : (x.negate.add y).sigma? = (x.add y).sigma? := by
  cases x <;> cases y <;> rfl

theorem sigma?_add_negate : (x.add y.negate).sigma? = (x.add y).sigma? := by
  rw [add_comm, sigma?_negate_add, add_comm]

/-- The laws of order and sign between any two values, to the bit and with the kinds of the results:
sums and products commute, a difference is a sum with one operand negated, and a negated operand
negates a product or a quotient. So no sign of an operand is of account for an uncertainty. -/
theorem laws_of_order_and_sign :
    x.add y = y.add x ∧ x.multiply y = y.multiply x ∧ x.subtract y = x.add y.negate ∧
    (x.negate.multiply y = x.multiply y.negate ∧ x.multiply y.negate = (x.multiply y).negate) ∧
    (x.negate.divide y = x.divide y.negate ∧ x.divide y.negate = (x.divide y).negate) ∧
    ∀ operation ∈ [add, subtract, multiply, divide],
      (operation x.negate y).sigma? = (operation x y).sigma? ∧
      (operation x y.negate).sigma? = (operation x y).sigma? := by
  refine ⟨add_comm x y, multiply_comm x y, subtract_eq_add_negate x y, ⟨?_, multiply_negate x y⟩,
    ⟨?_, divide_negate x y⟩, ?_⟩
  · rw [negate_multiply, multiply_negate]
  · rw [negate_divide, divide_negate]
  · simp only [List.forall_mem_cons, List.not_mem_nil, false_imp_iff, implies_true, and_true]
    refine ⟨⟨sigma?_negate_add x y, sigma?_add_negate x y⟩, ?_, ?_, ?_⟩
    · simp only [subtract_eq_add_negate, sigma?_negate_add, sigma?_add_negate, and_self]
    · simp only [negate_multiply, multiply_negate, sigma?_negate, and_self]
    · simp only [negate_divide, divide_negate, sigma?_negate, and_self]

end Value
end Uncertainty
