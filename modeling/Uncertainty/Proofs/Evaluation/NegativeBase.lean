import Uncertainty.Proofs.Binary64.Finite
import Uncertainty.Proofs.Binary64.Monotone
import Uncertainty.Proofs.Evaluation.Kind
import Uncertainty.Calculation

/-!
Powers of negative numbers. Raising a value takes certain powers of doubles and no others; among
them one with a negative base has a whole exponent, or its base is the mean of a measurement with an
undefined uncertainty. Only such a mean gets past the lower bound, with an undefined uncertainty in
the result.
-/
namespace Uncertainty

namespace Binary64

/-- The real line has no such power, though the complex plane has. -/
def hasComplexPower (base exponent : Binary64) : Bool :=
  base.less zero && base.isFinite && exponent.isFinite && !exponent.isInteger

end Binary64

open Binary64 (zero one)

variable {raise raise' : Binary64 → Binary64 → Binary64}

namespace Measurement

variable {x y m : Measurement}

/-- The power of measurements, with any function in the place of the power of doubles. -/
def powBy (raise : Binary64 → Binary64 → Binary64) (x y : Measurement) : Measurement :=
  let mean := raise x.mean y.mean
  let byBase :=
    if x.sigma.isZero then zero else y.mean * raise x.mean (y.mean - one) * x.sigma
  let byExponent :=
    if y.sigma.isZero then zero else x.mean.log * mean * y.sigma
  ⟨mean, combined byBase byExponent⟩

/-- The powers of doubles that go into a power of measurements, each by its base and exponent. -/
def powers (x y : Measurement) : List (Binary64 × Binary64) :=
  (x.mean, y.mean) :: if x.sigma.isZero then [] else [(x.mean, y.mean - one)]

theorem powBy_congr (agree : ∀ call ∈ x.powers y, raise call.1 call.2 = raise' call.1 call.2) :
    powBy raise x y = powBy raise' x y := by
  have mean : raise x.mean y.mean = raise' x.mean y.mean := agree _ List.mem_cons_self
  unfold powBy
  rw [mean]
  split
  case isTrue => rfl
  case isFalse uncertain =>
    have derivative : raise x.mean (y.mean - one) = raise' x.mean (y.mean - one) := by
      refine agree (x.mean, y.mean - one) (List.mem_cons_of_mem _ ?_)
      rw [if_neg uncertain]
      exact List.mem_singleton_self _
    rw [derivative]

theorem base_of_mem_powers {call : Binary64 × Binary64} (member : call ∈ x.powers y) :
    call.1 = x.mean := by
  rcases List.mem_cons.mp member with rfl | member
  · rfl
  · split at member
    · cases member
    · rw [List.mem_singleton.mp member]

theorem lowerBound_negative (negative : m.mean.less zero = true) (clear : m.sigma.SignClear)
    (defined : m.sigma ≠ .nan) : m.lowerBound.less zero = true :=
  Binary64.sub_less_zero negative clear defined

theorem combined_nan (b : Binary64) : combined .nan b = .nan := by
  cases b <;> rfl

theorem lowerBound_nan (undefined : m.sigma = .nan) : m.lowerBound = .nan := by
  rw [lowerBound, undefined]
  cases m.mean <;> rfl

theorem sigma_pow_nan (undefined : x.sigma = .nan) : (x.pow y).sigma = .nan := by
  have nonzero : ¬ Binary64.nan.isZero = true := Bool.false_ne_true
  unfold pow
  dsimp only
  rw [undefined, if_neg nonzero, Binary64.mul_nan, combined_nan]

end Measurement

namespace Value

variable {x y : Value} {m : Measurement} {make : Binary64 → Value}

def powerOfBy (raise : Binary64 → Binary64 → Binary64) (result : Binary64 → Value)
    (base : Binary64) (exponent : Value) : Except DomainError Value :=
  if zero.atMost base || base.isNan then
    match exponent with
    | measurement y => .ok (measurement ((Measurement.exact base).powBy raise y))
    | positive y | number y => .ok (result (raise base y))
  else
    match exponent with
    | measurement y => .error (.uncertainExponent base y)
    | positive y | number y =>
      if y.isInteger then .ok (number (raise base y)) else .error (.fractionalExponent base y)

def powerBy (raise : Binary64 → Binary64 → Binary64) : Value → Value → Except DomainError Value
  | measurement x, exponent =>
    if x.lowerBound.less zero then .error (.uncertainBase x)
    else .ok (measurement (x.powBy raise exponent.lift))
  | positive x, exponent => powerOfBy raise positive x exponent
  | number x, exponent => powerOfBy raise number x exponent

def powersOf (base : Binary64) : Value → List (Binary64 × Binary64)
  | measurement y => if zero.atMost base || base.isNan then (Measurement.exact base).powers y else []
  | positive k | number k =>
    if zero.atMost base || base.isNan || k.isInteger then [(base, k)] else []

/-- The powers of doubles that go into a power of values, none if it is refused. -/
def powers : Value → Value → List (Binary64 × Binary64)
  | measurement x, exponent => if x.lowerBound.less zero then [] else x.powers exponent.lift
  | positive base, exponent | number base, exponent => powersOf base exponent

theorem powerBy_pow (x y : Value) : powerBy Binary64.pow x y = x.power y := by
  cases x <;> rfl

theorem powerOfBy_congr {base : Binary64}
    (agree : ∀ call ∈ powersOf base y, raise call.1 call.2 = raise' call.1 call.2) :
    powerOfBy raise make base y = powerOfBy raise' make base y := by
  unfold powerOfBy
  cases y with
  | measurement y =>
    split
    case isTrue raisable =>
      rw [powersOf, if_pos raisable] at agree
      dsimp only
      rw [Measurement.powBy_congr agree]
    case isFalse => rfl
  | positive k | number k =>
    rw [powersOf] at agree
    split
    case isTrue raisable =>
      rw [raisable, Bool.true_or, if_pos rfl] at agree
      dsimp only
      rw [agree _ (List.mem_singleton_self _)]
    case isFalse =>
      dsimp only
      split
      case isTrue whole =>
        rw [whole, Bool.or_true, if_pos rfl] at agree
        rw [agree _ (List.mem_singleton_self _)]
      case isFalse => rfl

/-- A power of values depends on no other powers of doubles. -/
theorem powerBy_congr
    (agree : ∀ call ∈ x.powers y, raise call.1 call.2 = raise' call.1 call.2) :
    powerBy raise x y = powerBy raise' x y := by
  cases x with
  | measurement m =>
    unfold powerBy
    dsimp only
    split
    case isTrue => rfl
    case isFalse reaches =>
      rw [powers, if_neg reaches] at agree
      rw [Measurement.powBy_congr agree]
  | positive | number => exact powerOfBy_congr agree

theorem mem_powersOf {start base exponent : Binary64}
    (member : (base, exponent) ∈ powersOf start y) :
    base = start ∧ (Raisable start ∨ y.IsPlain exponent ∧ exponent.isInteger = true) := by
  cases y with
  | measurement n =>
    rw [powersOf] at member
    split at member
    case isTrue raisable => exact ⟨Measurement.base_of_mem_powers member, .inl raisable⟩
    case isFalse => cases member
  | positive k | number k =>
    rw [powersOf] at member
    split at member
    case isTrue accepted =>
      cases List.mem_singleton.mp member
      refine ⟨rfl, ?_⟩
      rcases Bool.or_eq_true_iff.mp accepted with raisable | whole
      · exact .inl raisable
      · exact .inr ⟨by simp, whole⟩
    case isFalse => cases member

theorem mem_powers {base exponent : Binary64} (member : (base, exponent) ∈ x.powers y) :
    (∃ m, x = measurement m ∧ m.mean = base ∧ m.lowerBound.less zero = false) ∨
    x.IsPlain base ∧ (Raisable base ∨ y.IsPlain exponent ∧ exponent.isInteger = true) := by
  cases x with
  | measurement m =>
    rw [powers] at member
    split at member
    case isTrue => cases member
    case isFalse reaches =>
      exact .inl ⟨m, rfl, (Measurement.base_of_mem_powers member).symm,
        Bool.eq_false_iff.mpr reaches⟩
  | positive start | number start =>
    obtain ⟨rfl, accepted⟩ := mem_powersOf member
    exact .inr ⟨by simp, accepted⟩

theorem Raisable.not_less_zero {base : Binary64} (raisable : Raisable base) :
    base.less zero = false := by
  have ofZero : zero.place? = some 0 := rfl
  rcases Bool.or_eq_true_iff.mp raisable with nonneg | undefined
  · rw [Binary64.atMost, Binary64.compareBy, ofZero] at nonneg
    rw [Binary64.less, Binary64.compareBy, ofZero]
    cases place : base.place? with
    | none => rfl
    | some p =>
      rw [place] at nonneg
      exact decide_eq_false (Int.not_lt.mpr (of_decide_eq_true nonneg))
  · cases base with
    | nan => rfl
    | infinite | finite => cases undefined

/-- A negative base is that of a plain number with a whole exponent, or a mean with an undefined
uncertainty. -/
theorem negative_of_mem_powers {base exponent : Binary64} (clear : x.SignClear)
    (member : (base, exponent) ∈ x.powers y) (negative : base.less zero = true) :
    (x = number base ∧ y.IsPlain exponent ∧ exponent.isInteger = true) ∨
    ∃ m, x = measurement m ∧ m.mean = base ∧ m.sigma = .nan := by
  rcases mem_powers member with ⟨m, rfl, rfl, reaches⟩ | ⟨plain, accepted⟩
  · refine .inr ⟨m, rfl, rfl, ?_⟩
    by_contra defined
    rw [Measurement.lowerBound_negative negative clear defined] at reaches
    cases reaches
  · rcases accepted with raisable | ⟨plainExponent, whole⟩
    · rw [raisable.not_less_zero] at negative
      cases negative
    · rcases plain with rfl | rfl
      · rw [Raisable.not_less_zero (.of_signClear clear)] at negative
        cases negative
      · exact .inl ⟨rfl, plainExponent, whole⟩

theorem power_of_negative_mean (clear : m.sigma.SignClear) (negative : m.mean.less zero = true)
    (exponent : Value) :
    (m.sigma ≠ .nan → (measurement m).power exponent = .error (.uncertainBase m)) ∧
    (m.sigma = .nan → ∃ result,
      (measurement m).power exponent = .ok (measurement result) ∧ result.sigma = .nan) := by
  constructor
  · intro defined
    exact if_pos (Measurement.lowerBound_negative negative clear defined)
  · intro undefined
    have reaches : m.lowerBound.less zero = false := by
      rw [Measurement.lowerBound_nan undefined]
      rfl
    exact ⟨_, if_neg (Bool.eq_false_iff.mp reaches), Measurement.sigma_pow_nan undefined⟩

end Value

namespace Task

/-- The next step raises the first of two values to the second. -/
def Raises (work : List Task) (values : List Value) (x y : Value) : Prop :=
  ∃ sign count later, work = apply sign count :: later ∧ sign.lexeme = .symbol .caret ∧
    (values.take count).reverse = [x, y]

theorem Raises.mem {work : List Task} {values : List Value} {x y : Value}
    (raises : Raises work values x y) : x ∈ values := by
  obtain ⟨sign, count, later, -, -, operands⟩ := raises
  have member : x ∈ (values.take count).reverse := by
    rw [operands]
    exact List.mem_cons_self
  exact List.mem_of_mem_take (List.mem_reverse.mp member)

end Task

namespace Expr

variable {tree : Expr} {work : List Task} {values : List Value}

/-- Along the evaluation of an expression, a measurement with a negative mean has no power unless its
uncertainty is undefined, and then the power has an undefined one too. A power that is taken depends
on the powers of doubles listed for it and on no others. If one of these has a negative base, then
this is a plain number with a whole exponent, or the mean of such a measurement; only the latter can
come to a complex power. -/
theorem negative_base_of_reaches
    (origin : tree.WellFormed ∨ ∃ limit text, ofText limit text = .ok tree)
    (reached : Task.Reaches tree work values) :
    (∀ m, .measurement m ∈ values → m.mean.less zero = true → ∀ exponent,
      (m.sigma ≠ .nan → (Value.measurement m).power exponent = .error (.uncertainBase m)) ∧
      (m.sigma = .nan → ∃ result,
        (Value.measurement m).power exponent = .ok (.measurement result) ∧
          result.sigma = .nan)) ∧
    ∀ x y, Task.Raises work values x y →
      (∀ raise, (∀ call ∈ x.powers y, raise call.1 call.2 = call.1.pow call.2) →
        Value.powerBy raise x y = x.power y) ∧
      ∀ base exponent, (base, exponent) ∈ x.powers y → base.less zero = true →
        ((x = .number base ∧ y.IsPlain exponent ∧ exponent.isInteger = true) ∨
          ∃ m, x = .measurement m ∧ m.mean = base ∧ m.sigma = .nan) ∧
        (base.hasComplexPower exponent = true →
          ∃ m, x = .measurement m ∧ m.mean = base ∧ m.sigma = .nan) := by
  have formed : tree.WellFormed := origin.elim id fun ⟨_, _, read⟩ => wellFormed_of_ofText read
  have clear := (reached.clear formed).clear
  refine ⟨fun m member negative exponent => ?_, fun x y raises => ⟨fun raise agree => ?_, ?_⟩⟩
  · exact Value.power_of_negative_mean (clear _ member) negative exponent
  · rw [Value.powerBy_congr agree, Value.powerBy_pow]
  · intro base exponent member negative
    have cases := Value.negative_of_mem_powers (clear x raises.mem) member negative
    refine ⟨cases, fun isComplex => cases.resolve_left ?_⟩
    rintro ⟨-, -, whole⟩
    rw [Binary64.hasComplexPower, whole, Bool.not_true, Bool.and_false] at isComplex
    cases isComplex

/-- While `(-2 ± 1) ^ (-2) ^ 3` is evaluated, minus two is raised to a whole power, above a negative
mean that has no power at all. -/
theorem negative_base_of_nested_powers :
    let numeral (digits : String) := atom ⟨.number ⟨digits, ""⟩, none⟩
    let minusTwo := group ⟨.symbol .minus, none⟩ [numeral "2"]
    let measured := group ⟨.symbol .plusMinus, none⟩ [minusTwo, numeral "1"]
    let raised := group ⟨.symbol .caret, none⟩ [minusTwo, numeral "3"]
    let tree := group ⟨.symbol .caret, none⟩ [measured, raised]
    let two := Binary64.ofRank true 0x4000000000000000
    let three := Binary64.ofRank false 0x4008000000000000
    let m : Measurement := ⟨two, one⟩
    let raise := Task.apply ⟨.symbol .caret, none⟩ 2
    let values := [.positive three, .number two, .measurement m]
    tree.WellFormed ∧ Task.Reaches tree [raise, raise] values ∧
      m.mean.less zero = true ∧ m.sigma ≠ .nan ∧
      Task.Raises [raise, raise] values (.number two) (.positive three) ∧
      (two, three) ∈ (Value.number two).powers (.positive three) ∧
      (Value.measurement m).power (.number two) = .error (.uncertainBase m) ∧
      three.isInteger = true := by
  intro numeral minusTwo measured raised tree two three m raise values
  have one : (numeral "1").WellFormed := .number rfl ⟨by simp, by simp, by simp⟩
  have minusFormed : minusTwo.WellFormed :=
    .negation rfl (.number rfl ⟨by simp, by simp, by simp⟩)
  have formed : tree.WellFormed := .infixed rfl (.infixed rfl minusFormed one)
    (.infixed rfl minusFormed (.number rfl ⟨by simp, by simp, by simp⟩))
  have left : Task.Reaches tree [.evaluate raised, raise] [.measurement m] :=
    .evaluated measured Task.Reaches.start.entered (by decide +kernel)
  have base : Task.Reaches tree [.evaluate (numeral "3"), raise, raise]
      [.number two, .measurement m] :=
    .evaluated minusTwo left.entered (by decide +kernel)
  have reached : Task.Reaches tree [raise, raise] values :=
    .evaluated (numeral "3") base (by decide +kernel)
  have negative : m.mean.less zero = true := by decide +kernel
  have defined : m.sigma ≠ .nan := by decide +kernel
  have raises : Task.Raises [raise, raise] values (.number two) (.positive three) :=
    ⟨_, 2, [raise], rfl, rfl, rfl⟩
  have member : (two, three) ∈ (Value.number two).powers (.positive three) := by decide +kernel
  obtain ⟨refused, powers⟩ := negative_base_of_reaches (.inl formed) reached
  refine ⟨formed, reached, negative, defined, raises, member, ?_, ?_⟩
  · exact (refused m (by simp [values]) negative _).1 defined
  · obtain ⟨-, -, whole⟩ | ⟨m, isMeasurement, -⟩ := ((powers _ _ raises).2 _ _ member negative).1
    · exact whole
    · cases isMeasurement

/-- The mean of `(0 ± 1) * (2 ± 1) - 5` is negative, but its uncertainty is undefined: its square
root is taken, of minus five in the complex plane. -/
theorem exists_power_of_negative_mean :
    let m : Measurement := ⟨.ofRank true 0x4014000000000000, .nan⟩
    let half := Binary64.ofRank false 0x3FE0000000000000
    Value.ofText defaultDepth "(0 ± 1) * (2 ± 1) - 5" = .ok (.measurement m) ∧
      m.mean.less zero = true ∧
      (Value.measurement m).power (.positive half) = .ok (.measurement ⟨.nan, .nan⟩) ∧
      (m.mean, half) ∈ (Value.measurement m).powers (.positive half) ∧
      m.mean.hasComplexPower half = true := by
  simp only [Value.ofText, evaluate_computes]
  decide +kernel

end Expr
end Uncertainty
