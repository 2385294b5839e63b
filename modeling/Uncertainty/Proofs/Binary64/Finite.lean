import Uncertainty.Proofs.Binary64.Arithmetic

/-!
Finite numbers. A product that is finite has finite factors, and a quotient that is finite has a
divisor other than zero. Zero times a finite number is zero, and so is zero divided by anything that
is neither zero nor undefined.
-/
namespace Uncertainty.Binary64

def isFinite : Binary64 → Bool
  | finite _ _ => true
  | nan | infinite _ => false

variable {x y : Binary64}

theorem exists_finite (isFinite : x.isFinite = true) : ∃ s rank, x = finite s rank := by
  cases x with
  | nan | infinite => cases isFinite
  | finite s rank => exact ⟨s, rank, rfl⟩

theorem isFinite_abs (x : Binary64) : x.abs.isFinite = x.isFinite := by
  cases x <;> rfl

theorem isNan_abs (x : Binary64) : x.abs.isNan = x.isNan := by
  cases x <;> rfl

theorem isZero_abs (x : Binary64) : x.abs.isZero = x.isZero := by
  cases x <;> rfl

theorem eq_zero_of_isZero (isZero : x.isZero = true) (clear : x.SignClear) : x = zero := by
  cases x with
  | nan | infinite => cases isZero
  | finite s rank =>
    obtain rfl : s = false := clear
    exact congrArg (finite false) (Fin.ext (of_decide_eq_true isZero))

@[simp] theorem nearestRank_zero (denominator : Nat) : nearestRank 0 denominator = 0 := by
  simp [nearestRank, roundHalfEven, Nat.log2_zero]

theorem ofQuotient_zero (denominator : Nat) : ofQuotient false 0 denominator = zero := by
  rw [ofQuotient, nearestRank_zero]
  rfl

theorem isFinite_of_mul (product : (x * y).isFinite = true) :
    x.isFinite = true ∧ y.isFinite = true := by
  change (mul x y).isFinite = true at product
  cases x with
  | nan => cases product
  | infinite s =>
    cases y with
    | nan | infinite => cases product
    | finite t b =>
      rw [mul] at product
      split at product <;> cases product
  | finite s a =>
    cases y with
    | nan => cases product
    | infinite t =>
      rw [mul] at product
      split at product <;> cases product
    | finite => exact ⟨rfl, rfl⟩

/-- A quotient by zero is infinite or undefined. -/
theorem isZero_of_div (quotient : (x / y).isFinite = true) : y.isZero = false := by
  change (div x y).isFinite = true at quotient
  cases y with
  | nan | infinite => rfl
  | finite t b =>
    cases x with
    | nan | infinite => cases quotient
    | finite s a =>
      refine decide_eq_false fun isZero => ?_
      rw [div, if_neg fun nonzero => nonzero isZero] at quotient
      split at quotient <;> cases quotient

theorem isFinite_of_div (quotient : (x / y).isFinite = true) : x.isFinite = true := by
  cases x with
  | nan => cases y <;> cases quotient
  | infinite => cases y <;> cases quotient
  | finite => rfl

theorem isNan_of_div (quotient : (x / y).isFinite = true) : y.isNan = false := by
  cases y with
  | nan => cases x <;> cases quotient
  | infinite | finite => rfl

theorem zero_mul_abs (isFinite : x.isFinite = true) : zero * x.abs = zero := by
  obtain ⟨s, rank, rfl⟩ := exists_finite isFinite
  change ofQuotient false (unitsOfRank 0 * unitsOfRank rank) unitsOfOne = zero
  have units : unitsOfRank 0 = 0 := rfl
  rw [units, Nat.zero_mul, ofQuotient_zero]

theorem zero_div_abs (defined : x.isNan = false) (nonzero : x.isZero = false) :
    zero / x.abs = zero := by
  cases x with
  | nan => cases defined
  | infinite => rfl
  | finite s rank =>
    have divisor : rank.val ≠ 0 := of_decide_eq_false nonzero
    have units : unitsOfRank 0 = 0 := rfl
    change div zero (finite false rank) = zero
    rw [zero, div, if_pos divisor, units, Nat.zero_shiftLeft]
    exact ofQuotient_zero _

end Uncertainty.Binary64
