import Mathlib.Data.Nat.Digits.Lemmas
import Mathlib.Data.Nat.MaxPowDiv
import Mathlib.Algebra.Order.Field.Rat
import Uncertainty.Proofs.Literal.Value

/-!
The significant figures of a literal as digits of a number. The digits of a literal, read without
its point, write a natural number; behind a point its figures are all decimal digits of that number,
without one the digits that are left when the number is divided by ten as often as it can be.
-/
namespace Uncertainty

open Binary64.Numeral (value toNat_of_isDigit)

section Digits

variable {digits more : List Char} {c : Char}

theorem value_concat : value (digits ++ [c]) = (c.toNat - 48) + 10 * value digits := by
  rw [value, List.foldl_append]
  exact Nat.add_comm _ _

theorem value_concat_zero : value (digits ++ ['0']) = 10 * value digits := by
  rw [value_concat]
  exact Nat.zero_add _

theorem value_zeros (count : Nat) : value (List.replicate count '0' ++ digits) = value digits := by
  induction count with
  | zero => rfl
  | succ count ih => exact ih

theorem digit_eq_zero_iff (digit : c.isDigit) : c.toNat - 48 = 0 ↔ c = '0' := by
  have range := toNat_of_isDigit digit
  rw [← Char.toNat_inj]
  change _ ↔ c.toNat = 48
  omega

theorem dropWhile_zeros_concat : (digits ++ [c]).dropWhile (· = '0') =
    if c = '0' ∧ digits.dropWhile (· = '0') = [] then [] else digits.dropWhile (· = '0') ++ [c] := by
  rw [List.dropWhile_append]
  cases digits.dropWhile (· = '0') with
  | nil => by_cases zero : c = '0' <;> simp [zero]
  | cons d rest => simp

/-- The digits from the first one on that is not zero are as many as the number has. -/
theorem length_digits_value (inside : ∀ c ∈ digits, c.isDigit) :
    (Nat.digits 10 (value digits)).length = (digits.dropWhile (· = '0')).length := by
  induction digits using List.reverseRecOn with
  | nil => rfl
  | append_singleton digits c ih =>
    have lengths := ih fun d member => inside d (List.mem_append_left _ member)
    have digit := inside c (by simp)
    have range := toNat_of_isDigit digit
    have isZero : value digits = 0 ↔ digits.dropWhile (· = '0') = [] := by
      rw [← Nat.digits_eq_nil_iff_eq_zero (b := 10), ← List.length_eq_zero_iff, lengths,
        List.length_eq_zero_iff]
    rw [value_concat, dropWhile_zeros_concat]
    split
    case isTrue zero =>
      rw [(digit_eq_zero_iff digit).mpr zero.1, isZero.mpr zero.2]
      rfl
    case isFalse nonzero =>
      rw [← digit_eq_zero_iff digit, ← isZero] at nonzero
      rw [Nat.digits_add 10 (by decide) _ _ (by omega) (by omega), List.length_cons, lengths,
        List.length_append, List.length_singleton]

theorem divMaxPow_of_not_dvd {n : Nat} (apart : ¬ 10 ∣ n) : n.divMaxPow 10 = n := by
  rw [Nat.divMaxPow, Nat.maxPowDvdDiv_of_not_dvd apart]

/-- Without the zeros at both ends there are as many digits as the number has that is left when all
factors ten are divided out. -/
theorem length_digits_divMaxPow (inside : ∀ c ∈ digits, c.isDigit) :
    (Nat.digits 10 ((value digits).divMaxPow 10)).length =
      ((digits.dropWhile (· = '0')).reverse.dropWhile (· = '0')).length := by
  induction digits using List.reverseRecOn with
  | nil => simp [value]
  | append_singleton digits c ih =>
    have lengths := ih fun d member => inside d (List.mem_append_left _ member)
    have digit := inside c (by simp)
    have range := toNat_of_isDigit digit
    by_cases zero : c = '0'
    · -- one more factor ten, and one more zero to take away
      rw [value_concat, (digit_eq_zero_iff digit).mpr zero, Nat.zero_add,
        Nat.divMaxPow_base_mul (by decide), lengths, dropWhile_zeros_concat]
      split
      case isTrue empty => rw [empty.2]
      case isFalse => simp [zero]
    · have lastDigit := mt (digit_eq_zero_iff digit).mp zero
      have apart : ¬ 10 ∣ value (digits ++ [c]) := by
        rw [value_concat]
        omega
      rw [divMaxPow_of_not_dvd apart, length_digits_value inside, dropWhile_zeros_concat,
        if_neg fun both => zero both.1]
      simp [zero]

end Digits

namespace Literal

variable {literal : Literal}

/-- The number that the digits of a literal write without the point. -/
def coefficient (literal : Literal) : Nat :=
  Binary64.Numeral.value (literal.integral.toList ++ literal.fractional.toList)

/-- The number that a literal writes, not rounded. -/
def number (literal : Literal) : Rat :=
  literal.coefficient / 10 ^ literal.fractional.length

theorem number_eq_zero_iff : literal.number = 0 ↔ literal.coefficient = 0 := by
  simp [number]

theorem IsDecimal.digit (isDecimal : literal.IsDecimal) :
    ∀ c ∈ literal.integral.toList ++ literal.fractional.toList, c.isDigit := fun c member =>
  (List.mem_append.mp member).elim (isDecimal.integral c) (isDecimal.fractional c)

theorem IsDecimal.significantFigures_pointed (isDecimal : literal.IsDecimal)
    (pointed : literal.fractional ≠ "") :
    literal.significantFigures = (Nat.digits 10 literal.coefficient).length := by
  have behind : literal.fractional.toList.isEmpty = false := by simpa using pointed
  rw [coefficient, length_digits_value isDecimal.digit, List.dropWhile_append]
  simp only [significantFigures, behind, Bool.false_eq_true, ↓reduceIte]
  split
  case isTrue => rfl
  case isFalse => rw [List.length_append]

theorem IsDecimal.significantFigures_whole (isDecimal : literal.IsDecimal)
    (whole : literal.fractional = "") :
    literal.significantFigures = (Nat.digits 10 (literal.coefficient.divMaxPow 10)).length := by
  rw [coefficient, length_digits_divMaxPow isDecimal.digit]
  simp [significantFigures, whole]

theorem IsDecimal.significantFigures_eq_zero_iff (isDecimal : literal.IsDecimal) :
    literal.significantFigures = 0 ↔ literal.coefficient = 0 := by
  by_cases whole : literal.fractional = ""
  · have restored := Nat.divMaxPow_mul_pow_padicValNat 10 literal.coefficient
    rw [isDecimal.significantFigures_whole whole, List.length_eq_zero_iff,
      Nat.digits_eq_nil_iff_eq_zero]
    constructor
    · intro nothing
      rw [← restored, nothing, Nat.zero_mul]
    · intro zero
      rw [zero, Nat.divMaxPow_zero_left]
  · rw [isDecimal.significantFigures_pointed whole, List.length_eq_zero_iff,
      Nat.digits_eq_nil_iff_eq_zero]

/-- The figures depend on the number and on whether there is a point. -/
theorem IsDecimal.significantFigures_congr {other : Literal} (isDecimal : literal.IsDecimal)
    (isDecimal' : other.IsDecimal) (same : literal.coefficient = other.coefficient)
    (alike : literal.fractional = "" ↔ other.fractional = "") :
    literal.significantFigures = other.significantFigures := by
  by_cases whole : literal.fractional = ""
  · rw [isDecimal.significantFigures_whole whole,
      isDecimal'.significantFigures_whole (alike.mp whole), same]
  · rw [isDecimal.significantFigures_pointed whole,
      isDecimal'.significantFigures_pointed (mt alike.mpr whole), same]

def padded (literal : Literal) (zeros : Nat) : Literal :=
  ⟨String.ofList (List.replicate zeros '0') ++ literal.integral, literal.fractional⟩

theorem coefficient_padded (zeros : Nat) :
    (literal.padded zeros).coefficient = literal.coefficient := by
  simp [coefficient, padded, value_zeros]

theorem IsDecimal.padded (isDecimal : literal.IsDecimal) (zeros : Nat) :
    (literal.padded zeros).IsDecimal := by
  refine ⟨by simp [Literal.padded, isDecimal.nonempty], fun c member => ?_, isDecimal.fractional⟩
  rw [Literal.padded, String.toList_append, String.toList_ofList] at member
  rcases List.mem_append.mp member with zero | inside
  · rw [List.eq_of_mem_replicate zero]
    rfl
  · exact isDecimal.integral c inside

def extended (literal : Literal) : Literal :=
  if literal.fractional = "" then ⟨literal.integral ++ "0", ""⟩
  else ⟨literal.integral, literal.fractional ++ "0"⟩

theorem extended_whole (whole : literal.fractional = "") :
    literal.extended = ⟨literal.integral ++ "0", ""⟩ :=
  if_pos whole

theorem extended_pointed (pointed : literal.fractional ≠ "") :
    literal.extended = ⟨literal.integral, literal.fractional ++ "0"⟩ :=
  if_neg pointed

theorem toList_append_zero (text : String) : (text ++ "0").toList = text.toList ++ ['0'] := by
  rw [String.toList_append]
  rfl

theorem extended_fractional_eq_empty_iff :
    literal.extended.fractional = "" ↔ literal.fractional = "" := by
  by_cases whole : literal.fractional = ""
  · simp [extended_whole, whole]
  · simp [extended_pointed, whole]

theorem coefficient_extended : literal.extended.coefficient = 10 * literal.coefficient := by
  by_cases whole : literal.fractional = ""
  · simp [extended_whole, coefficient, whole, value_concat_zero]
  · rw [extended_pointed whole, coefficient, coefficient, toList_append_zero, ← List.append_assoc,
      value_concat_zero]

theorem IsDecimal.extended (isDecimal : literal.IsDecimal) : literal.extended.IsDecimal := by
  have zeroLast : ∀ digits : List Char, (∀ c ∈ digits, c.isDigit) →
      ∀ c ∈ digits ++ ['0'], c.isDigit := fun digits inside c member =>
    (List.mem_append.mp member).elim (inside c) fun zero => by
      rw [List.mem_singleton.mp zero]
      rfl
  by_cases whole : literal.fractional = ""
  · rw [extended_whole whole]
    refine ⟨by simp, ?_, by simp⟩
    rw [toList_append_zero]
    exact zeroLast _ isDecimal.integral
  · rw [extended_pointed whole]
    refine ⟨isDecimal.nonempty, isDecimal.integral, ?_⟩
    rw [toList_append_zero]
    exact zeroLast _ isDecimal.fractional

theorem IsDecimal.significantFigures_extended_whole (isDecimal : literal.IsDecimal)
    (whole : literal.fractional = "") :
    literal.extended.significantFigures = literal.significantFigures := by
  rw [isDecimal.significantFigures_whole whole,
    isDecimal.extended.significantFigures_whole (extended_fractional_eq_empty_iff.mpr whole),
    coefficient_extended, Nat.divMaxPow_base_mul (by decide)]

theorem IsDecimal.significantFigures_extended_pointed (isDecimal : literal.IsDecimal)
    (pointed : literal.fractional ≠ "") (nonzero : literal.coefficient ≠ 0) :
    literal.extended.significantFigures = literal.significantFigures + 1 := by
  rw [isDecimal.significantFigures_pointed pointed, isDecimal.extended.significantFigures_pointed
    (mt extended_fractional_eq_empty_iff.mp pointed), coefficient_extended,
    Nat.digits_base_mul (by decide) (Nat.pos_of_ne_zero nonzero), List.length_cons]

/-- The significant figures of a literal are the decimal digits of its digits' number, where the
zeros at the end count only behind a point. -/
theorem significantFigures_of_number (literal : Literal) (isDecimal : literal.IsDecimal) :
    (literal.fractional ≠ "" →
      literal.significantFigures = (Nat.digits 10 literal.coefficient).length) ∧
    (literal.fractional = "" →
      literal.significantFigures = (Nat.digits 10 (literal.coefficient.divMaxPow 10)).length) ∧
    (∀ zeros, (literal.padded zeros).significantFigures = literal.significantFigures) ∧
    (literal.significantFigures = 0 ↔ literal.number = 0) ∧
    (literal.fractional = "" →
      literal.extended.significantFigures = literal.significantFigures) ∧
    (literal.fractional ≠ "" → literal.extended.significantFigures =
      if literal.coefficient = 0 then 0 else literal.significantFigures + 1) := by
  refine ⟨isDecimal.significantFigures_pointed, isDecimal.significantFigures_whole,
    fun zeros => ?_, ?_, isDecimal.significantFigures_extended_whole, fun pointed => ?_⟩
  · exact (isDecimal.padded zeros).significantFigures_congr isDecimal (coefficient_padded zeros)
      Iff.rfl
  · rw [isDecimal.significantFigures_eq_zero_iff, number_eq_zero_iff]
  · split
    case isTrue zero =>
      rw [isDecimal.extended.significantFigures_eq_zero_iff, coefficient_extended, zero]
    case isFalse nonzero => exact isDecimal.significantFigures_extended_pointed pointed nonzero

/-- Two zeros in front and one behind the point: of `007.50` three figures count. -/
theorem significantFigures_of_padded_hundredths :
    (⟨"007", "50"⟩ : Literal).IsDecimal ∧ (⟨"007", "50"⟩ : Literal).significantFigures = 3 ∧
      (⟨"007", "50"⟩ : Literal).extended.significantFigures = 4 := by
  have isDecimal : (⟨"007", "50"⟩ : Literal).IsDecimal := ⟨by simp, by simp, by simp⟩
  have pointed : (⟨"007", "50"⟩ : Literal).fractional ≠ "" := by simp
  obtain ⟨counted, -, -, -, -, further⟩ := significantFigures_of_number ⟨"007", "50"⟩ isDecimal
  have three := counted pointed
  have four := further pointed
  have number : (⟨"007", "50"⟩ : Literal).coefficient = 750 := by decide
  rw [number] at three four
  have figures : (Nat.digits 10 750).length = 3 := by simp
  rw [figures] at three
  rw [three] at four
  exact ⟨isDecimal, three, four⟩

end Literal

end Uncertainty
