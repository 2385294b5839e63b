import Uncertainty.Binary64.Numeral
import Uncertainty.Binary64.Power

/-!
What arithmetic does with signs, and where the order of operands does not matter. Both survive
rounding: it is told the sign of the exact result and never changes it.
-/
namespace Uncertainty.Binary64

variable {x y : Binary64}

/-- Not-a-number or a number with a plus sign, so never minus zero. -/
def SignClear (x : Binary64) : Prop :=
  x.isNegative = false

@[simp] theorem isNegative_ofRank (negative : Bool) (rank : Nat) :
    (ofRank negative rank).isNegative = negative := by
  unfold ofRank
  split <;> rfl

@[simp] theorem isNegative_ofQuotient (negative : Bool) (numerator denominator : Nat) :
    (ofQuotient negative numerator denominator).isNegative = negative :=
  isNegative_ofRank ..

@[simp] theorem isNegative_ofDecimal (negative : Bool) (coefficient : Nat) (exponent : Int) :
    (ofDecimal negative coefficient exponent).isNegative = negative := by
  unfold ofDecimal
  split
  · exact isNegative_ofRank ..
  · split
    · rfl
    · split
      · exact isNegative_ofRank ..
      · split <;> exact isNegative_ofQuotient ..

theorem units_nonneg (rank : Fin finiteRanks) : 0 ≤ units false rank :=
  Int.natCast_nonneg _

/-- A product has the sign that its operands make, unless it is no number. -/
theorem mul_sign (x y : Binary64) :
    x * y = nan ∨ (x * y).isNegative = (x.isNegative != y.isNegative) := by
  change mul x y = nan ∨ (mul x y).isNegative = _
  cases x with
  | nan => exact .inl rfl
  | infinite s =>
    cases y with
    | nan => exact .inl rfl
    | infinite t => exact .inr rfl
    | finite t b =>
      simp only [mul]
      split
      · exact .inl rfl
      · exact .inr rfl
  | finite s a =>
    cases y with
    | nan => exact .inl rfl
    | infinite t =>
      simp only [mul]
      split
      · exact .inl rfl
      · exact .inr (bne_comm ..)
    | finite t b => exact .inr (isNegative_ofQuotient ..)

/-- A quotient has the sign that its operands make, unless it is no number. -/
theorem div_sign (x y : Binary64) :
    x / y = nan ∨ (x / y).isNegative = (x.isNegative != y.isNegative) := by
  change div x y = nan ∨ (div x y).isNegative = _
  cases x with
  | nan => exact .inl rfl
  | infinite s =>
    cases y with
    | nan | infinite => exact .inl rfl
    | finite => exact .inr rfl
  | finite s a =>
    cases y with
    | nan => exact .inl rfl
    | infinite t => exact .inr (isNegative_ofRank ..)
    | finite t b =>
      simp only [div]
      split
      · exact .inr (isNegative_ofQuotient ..)
      · split
        · exact .inl rfl
        · exact .inr rfl

/-- Equal signs make no minus sign. -/
theorem signClear_of_sign {z : Binary64}
    (sign : z = nan ∨ z.isNegative = (x.isNegative != y.isNegative))
    (same : x.isNegative = y.isNegative) : z.SignClear := by
  rcases sign with rfl | sign
  · rfl
  · rw [SignClear, sign, same, bne_self_eq_false]

theorem signClear_square (x : Binary64) : (x * x).SignClear :=
  signClear_of_sign (mul_sign x x) rfl

theorem signClear_abs (x : Binary64) : x.abs.SignClear := by
  cases x <;> rfl

namespace SignClear

theorem mul (left : x.SignClear) (right : y.SignClear) : (x * y).SignClear :=
  signClear_of_sign (mul_sign x y) (left.trans right.symm)

theorem div (left : x.SignClear) (right : y.SignClear) : (x / y).SignClear :=
  signClear_of_sign (div_sign x y) (left.trans right.symm)

theorem add (left : x.SignClear) (right : y.SignClear) : (x + y).SignClear := by
  change (Binary64.add x y).isNegative = false
  cases x with
  | nan => rfl
  | infinite s =>
    cases y with
    | nan => rfl
    | infinite t =>
      obtain rfl : s = false := left
      obtain rfl : t = false := right
      rfl
    | finite => exact left
  | finite s a =>
    cases y with
    | nan => rfl
    | infinite => exact right
    | finite t b =>
      obtain rfl : s = false := left
      obtain rfl : t = false := right
      have sum : 0 ≤ units false a + units false b :=
        Int.add_nonneg (units_nonneg a) (units_nonneg b)
      simp [Binary64.add, ofUnits, sum]

theorem sqrt (clear : x.SignClear) : x.sqrt.SignClear := by
  cases x with
  | nan => rfl
  | infinite s =>
    obtain rfl : s = false := clear
    rfl
  | finite s a =>
    obtain rfl : s = false := clear
    simp only [Binary64.sqrt, Bool.false_eq_true, ↓reduceIte]
    split
    · rfl
    · exact isNegative_ofQuotient ..

/-- Whatever the exponent, also where the power is infinite or no number. -/
theorem pow (clear : x.SignClear) (y : Binary64) : (x.pow y).SignClear := by
  have noSign : (x.isNegative && y.isOdd) = false := by rw [clear, Bool.false_and]
  unfold Binary64.pow
  rw [noSign]
  split
  case isTrue => rfl
  case isFalse =>
    cases x with
    | nan => rfl
    | infinite s =>
      cases y with
      | nan => rfl
      | infinite t | finite t => cases t <;> rfl
    | finite s a =>
      cases y with
      | nan => rfl
      | infinite =>
        dsimp only
        split
        · rfl
        · split <;> rfl
      | finite t b =>
        dsimp only
        split
        · split
          · rfl
          · exact isNegative_ofRank ..
        · split
          · rfl
          · exact isNegative_ofRank ..

end SignClear

theorem add_comm (x y : Binary64) : x + y = y + x := by
  change add x y = add y x
  cases x with
  | nan => cases y <;> rfl
  | infinite s =>
    cases y with
    | nan | finite => rfl
    | infinite t => by_cases same : s = t <;> simp [add, same, eq_comm]
  | finite s a =>
    cases y with
    | nan | infinite => rfl
    | finite t b => rw [add, add, Bool.and_comm, Int.add_comm]

theorem mul_comm (x y : Binary64) : x * y = y * x := by
  change mul x y = mul y x
  cases x with
  | nan => cases y <;> rfl
  | infinite s =>
    cases y with
    | nan | finite => rfl
    | infinite t => rw [mul, mul, bne_comm]
  | finite s a =>
    cases y with
    | nan | infinite => rfl
    | finite t b => rw [mul, mul, bne_comm, Nat.mul_comm]

end Uncertainty.Binary64
