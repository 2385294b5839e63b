import Uncertainty.Proofs.Binary64.Arithmetic

/-!
Negation beside the other operations. Rounding is the same on both sides of zero, so that a minus
sign passes through products and quotients without a trace in the digits, also where the result is
infinite, zero or no number.
-/
namespace Uncertainty.Binary64

@[simp] theorem neg_neg (x : Binary64) : - -x = x := by
  change neg (neg x) = x
  cases x with
  | nan => rfl
  | infinite s | finite s => rw [neg, neg, Bool.not_not]

@[simp] theorem abs_neg (x : Binary64) : (-x).abs = x.abs := by
  cases x <;> rfl

theorem neg_ofRank (negative : Bool) (rank : Nat) :
    -ofRank negative rank = ofRank (!negative) rank := by
  unfold ofRank
  split <;> rfl

theorem neg_ofQuotient (negative : Bool) (numerator denominator : Nat) :
    -ofQuotient negative numerator denominator = ofQuotient (!negative) numerator denominator :=
  neg_ofRank ..

/-- A result that is infinite unless it is no number is negated by its sign. -/
theorem neg_unless_nan (undefined : Prop) [Decidable undefined] (s : Bool) :
    -(if undefined then nan else infinite s) = if undefined then nan else infinite (!s) := by
  split <;> rfl

theorem neg_mul (x y : Binary64) : -x * y = -(x * y) := by
  change mul (neg x) y = -(mul x y)
  cases x with
  | nan => rfl
  | infinite s =>
    cases y with
    | nan => rfl
    | infinite t => exact congrArg infinite (Bool.not_bne s t)
    | finite t b => rw [neg, mul, mul, neg_unless_nan, Bool.not_bne]
  | finite s a =>
    cases y with
    | nan => rfl
    | infinite t => rw [neg, mul, mul, neg_unless_nan, Bool.bne_not]
    | finite t b => rw [neg, mul, mul, neg_ofQuotient, Bool.not_bne]

theorem mul_neg (x y : Binary64) : x * -y = -(x * y) := by
  rw [mul_comm, neg_mul, mul_comm]

theorem neg_div (x y : Binary64) : -x / y = -(x / y) := by
  change div (neg x) y = -(div x y)
  cases x with
  | nan => rfl
  | infinite s =>
    cases y with
    | nan | infinite => rfl
    | finite t b => exact congrArg infinite (Bool.not_bne s t)
  | finite s a =>
    cases y with
    | nan => rfl
    | infinite t => rw [neg, div, div, neg_ofRank, Bool.not_bne]
    | finite t b =>
      rw [neg, div, div]
      split
      case isTrue => rw [neg_ofQuotient, Bool.not_bne]
      case isFalse => rw [neg_unless_nan, Bool.not_bne]

/-- The sign of a divisor counts also where it is zero. -/
theorem div_neg (x y : Binary64) : x / -y = -(x / y) := by
  change div x (neg y) = -(div x y)
  cases x with
  | nan => rfl
  | infinite s =>
    cases y with
    | nan | infinite => rfl
    | finite t b => exact congrArg infinite (Bool.bne_not s t)
  | finite s a =>
    cases y with
    | nan => rfl
    | infinite t => rw [neg, div, div, neg_ofRank, Bool.bne_not]
    | finite t b =>
      rw [neg, div, div]
      split
      case isTrue => rw [neg_ofQuotient, Bool.bne_not]
      case isFalse => rw [neg_unless_nan, Bool.bne_not]

end Uncertainty.Binary64
