import Uncertainty.Value

/-!
The two operations that can be undefined, read backwards: what a power or a measurement has been
made of, given that it has been made.
-/
namespace Uncertainty.Value

variable {x y value : Value} {base : Binary64} {make : Binary64 → Value}

/-- A number without an uncertainty, whether or not it is known to be non-negative. -/
def IsPlain (value : Value) (x : Binary64) : Prop :=
  value = positive x ∨ value = number x

@[simp] theorem isPlain_positive (x : Binary64) : (positive x).IsPlain x :=
  .inl rfl

@[simp] theorem isPlain_number (x : Binary64) : (number x).IsPlain x :=
  .inr rfl

/-- A base that can be raised to any power: it is not negative, or no number at all. -/
def Raisable (base : Binary64) : Prop :=
  (Binary64.zero.atMost base || base.isNan) = true

theorem powerOf_ok (raised : powerOf make base y = .ok value) :
    (∃ n, y = measurement n ∧ Raisable base ∧
      value = measurement ((Measurement.exact base).pow n)) ∨
    ∃ k, y.IsPlain k ∧ (Raisable base ∧ value = make (base.pow k) ∨
      ¬ Raisable base ∧ k.isInteger ∧ value = number (base.pow k)) := by
  unfold powerOf at raised
  split at raised
  case isTrue raisable =>
    cases y with
    | measurement n =>
      cases raised
      exact .inl ⟨n, rfl, raisable, rfl⟩
    | positive k | number k =>
      cases raised
      exact .inr ⟨k, by simp, .inl ⟨raisable, rfl⟩⟩
  case isFalse negative =>
    cases y with
    | measurement n => cases raised
    | positive k | number k =>
      dsimp only at raised
      split at raised
      case isTrue whole =>
        cases raised
        exact .inr ⟨k, by simp, .inr ⟨negative, whole, rfl⟩⟩
      case isFalse => cases raised

/-- A power with an uncertain base, one with an uncertain exponent only, or one of plain numbers,
which is known to be non-negative only if its base is. -/
theorem power_ok (raised : x.power y = .ok value) :
    (∃ m, x = measurement m ∧ m.lowerBound.less .zero = false ∧
      value = measurement (m.pow y.lift)) ∨
    (∃ base n, x.IsPlain base ∧ y = measurement n ∧ Raisable base ∧
      value = measurement ((Measurement.exact base).pow n)) ∨
    ∃ base k, x.IsPlain base ∧ y.IsPlain k ∧
      (x = positive base ∧ Raisable base ∧ value = positive (base.pow k) ∨
        x = number base ∧ Raisable base ∧ value = number (base.pow k) ∨
        ¬ Raisable base ∧ k.isInteger ∧ value = number (base.pow k)) := by
  cases x with
  | measurement m =>
    unfold power at raised
    dsimp only at raised
    split at raised
    case isTrue => cases raised
    case isFalse reaches =>
      cases raised
      exact .inl ⟨m, rfl, Bool.eq_false_iff.mpr reaches, rfl⟩
  | positive base =>
    rcases powerOf_ok raised with
      ⟨n, rfl, raisable, rfl⟩ | ⟨k, plain, ⟨raisable, rfl⟩ | ⟨negative, whole, rfl⟩⟩
    · exact .inr (.inl ⟨base, n, by simp, rfl, raisable, rfl⟩)
    · exact .inr (.inr ⟨base, k, by simp, plain, .inl ⟨rfl, raisable, rfl⟩⟩)
    · exact .inr (.inr ⟨base, k, by simp, plain, .inr (.inr ⟨negative, whole, rfl⟩)⟩)
  | number base =>
    rcases powerOf_ok raised with
      ⟨n, rfl, raisable, rfl⟩ | ⟨k, plain, ⟨raisable, rfl⟩ | ⟨negative, whole, rfl⟩⟩
    · exact .inr (.inl ⟨base, n, by simp, rfl, raisable, rfl⟩)
    · exact .inr (.inr ⟨base, k, by simp, plain, .inr (.inl ⟨rfl, raisable, rfl⟩)⟩)
    · exact .inr (.inr ⟨base, k, by simp, plain, .inr (.inr ⟨negative, whole, rfl⟩)⟩)

theorem plusMinus_ok (made : x.plusMinus y = .ok value) :
    ∃ mean sigma, x.IsPlain mean ∧ y = positive sigma ∧ sigma.isNan = false ∧
      value = measurement ⟨mean, sigma⟩ := by
  cases y with
  | positive sigma =>
    unfold plusMinus at made
    dsimp only at made
    split at made
    case isTrue => cases made
    case isFalse defined =>
      cases x with
      | positive mean | number mean =>
        cases made
        exact ⟨mean, sigma, by simp, rfl, Bool.eq_false_iff.mpr defined, rfl⟩
      | measurement => cases made
  | number | measurement => cases made

end Uncertainty.Value
