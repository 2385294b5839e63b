import Uncertainty.Proofs.Binary64.Accuracy
import Uncertainty.Proofs.Evaluation.Exact
import Uncertainty.Proofs.Value.Signs

/-!
Plain numbers as operands beside exact measurements. A measurement is combined with a plain number
by a shorter formula than with the same number as an exact measurement. The central values are the
same either way. The uncertainty of a measurement that is multiplied or divided by a number is
scaled; beside an exact measurement it is taken relative to the mean, squared and taken back, which
needs a square and a mean in range, and then is the scaled one but for a few roundings.
-/
namespace Uncertainty

open Binary64 (zero slip unity overflow rootOfOne headroom)

namespace Measurement

variable {x plain lifted : Measurement} {a b k : Binary64} {c : ℚ}

theorem combined_exact (a : Binary64) : combined a zero = (a * a).sqrt := by
  have square : zero * zero = zero := Binary64.zero_mul_abs (x := zero) rfl
  rw [combined, sumOfSquares, square, Binary64.add_zero (Binary64.signClear_square a)]

theorem isFinite_combined (a : Binary64) : (combined a zero).isFinite = (a * a).isFinite := by
  rw [combined_exact, Binary64.isFinite_sqrt (Binary64.signClear_square a)]

section Relative

theorem relativeSigma_uncertain (uncertain : x.sigma.isZero = false) :
    x.relativeSigma = x.sigma / x.mean :=
  if_neg (by rw [uncertain]; exact Bool.false_ne_true)

theorem isFinite_sigma (relative : (x.relativeSigma * x.relativeSigma).isFinite = true) :
    x.sigma.isFinite = true := by
  cases isZero : x.sigma.isZero with
  | true =>
    cases same : x.sigma with
    | nan | infinite =>
      rw [same] at isZero
      cases isZero
    | finite => rfl
  | false =>
    rw [relativeSigma_uncertain isZero] at relative
    exact Binary64.isFinite_of_div (Binary64.isFinite_of_mul relative).1

/-- The relative uncertainty in least units, not rounded. -/
def exactRelative (x : Measurement) : ℚ :=
  x.sigma.extent * unity / x.mean.extent

theorem exactRelative_nonneg (x : Measurement) : 0 ≤ x.exactRelative :=
  div_nonneg (mul_nonneg (Nat.cast_nonneg _) Binary64.unity_pos.le) (Nat.cast_nonneg _)

variable (uncertain : x.sigma.isZero = false) (isMean : x.mean.isFinite = true)
  (relative : (x.relativeSigma * x.relativeSigma).isFinite = true)

include relative in
theorem combined_small : (combined x.relativeSigma zero).extent * 64 ≤ headroom := by
  rw [combined_exact]
  exact Binary64.sqrt_extent_le relative (Binary64.signClear_square _)

include uncertain isMean relative

theorem near_relativeSigma :
    Near (slip * slip * slip) (rootOfOne * 32) (combined x.relativeSigma zero).extent
      x.exactRelative := by
  rw [combined_exact]
  rw [relativeSigma_uncertain uncertain] at relative ⊢
  have finite := (Binary64.isFinite_of_mul relative).1
  have divided := Binary64.near_div (Binary64.isFinite_of_div finite) isMean finite
  have wide := Binary64.two_le_rootOfOne
  have chain := (Binary64.near_sqrt_square relative).trans divided
    (mul_pos Binary64.slip_pos Binary64.slip_pos).le Binary64.slip_mul_slip_le_two
    Binary64.slip_pos.le Binary64.slip_le_two (by linarith) one_pos.le
  exact chain.mono (by linarith)

theorem exactRelative_small : x.exactRelative ≤ headroom := by
  have near := (near_relativeSigma uncertain isMean relative).ge
  have small := combined_small relative
  have root := Binary64.rootOfOne_le
  unfold slip at near
  linarith

end Relative

/-- `b` is `a` scaled by a factor and rounded, and only infinite where this is out of range. -/
structure Scaled (c : ℚ) (a b : Binary64) : Prop where
  near : b.isFinite = true → Near slip 1 b.extent (a.extent * c)
  isFinite : slip * (a.extent * c) + 1 < overflow → b.isFinite = true

theorem scaled_mul (left : a.isFinite = true) (right : k.isFinite = true) :
    Scaled (k.extent / unity) a (a * k) where
  near isFinite := by
    have near := Binary64.near_mul isFinite
    rwa [mul_div_assoc] at near
  isFinite small := Binary64.isFinite_mul left right (by rwa [mul_div_assoc])

/-- An infinite divisor has no extent and scales by zero. -/
theorem scaled_div (left : a.isFinite = true) (defined : k.isNan = false)
    (nonzero : k.isZero = false) : Scaled (unity / k.extent) a (a / k) := by
  cases k with
  | nan => cases defined
  | infinite t =>
    obtain ⟨s, rank, rfl⟩ := Binary64.exists_finite left
    have extent : ((Binary64.finite s rank / Binary64.infinite t).extent : ℚ) = 0 := Nat.cast_zero
    have none : ((Binary64.infinite t).extent : ℚ) = 0 := Nat.cast_zero
    refine ⟨fun _ => ?_, fun _ => rfl⟩
    rw [extent, none]
    constructor <;> simp
  | finite t rank =>
    refine ⟨fun isFinite => ?_, fun small => ?_⟩
    · have near := Binary64.near_div left rfl isFinite
      rwa [mul_div_assoc] at near
    · exact Binary64.isFinite_div left rfl nonzero (by rwa [mul_div_assoc])

/-- How the uncertainties of a product or quotient are related that is made from `x` and a plain
number, and from `x` and the number lifted to an exact measurement. The latter needs a relative
uncertainty whose square is in range, and a mean in range. If it has both, then the two are finite
together up to the last steps before the overflow. -/
structure FiniteAlike (x plain lifted : Measurement) : Prop where
  needs : lifted.sigma.isFinite = true →
    (x.relativeSigma * x.relativeSigma).isFinite = true ∧ lifted.mean.isFinite = true
  of_plain : (x.relativeSigma * x.relativeSigma).isFinite = true → lifted.mean.isFinite = true →
    plain.sigma.clearsOverflow = true → lifted.sigma.isFinite = true
  of_lifted : (x.relativeSigma * x.relativeSigma).isFinite = true → lifted.mean.isFinite = true →
    lifted.sigma.clearsOverflow = true → plain.sigma.isFinite = true

section Scaling

variable (uncertain : x.sigma.isZero = false) (isMean : x.mean.isFinite = true)
  (relative : (x.relativeSigma * x.relativeSigma).isFinite = true) (nonneg : 0 ≤ c)
  (mean : Scaled c x.mean a) (sigma : Scaled c x.sigma b) (isFinite : a.isFinite = true)

include uncertain isMean relative in
theorem exactRelative_mul (c : ℚ) :
    x.exactRelative * (x.mean.extent * c) / unity = x.sigma.extent * c := by
  rw [relativeSigma_uncertain uncertain] at relative
  have nonzero := Binary64.isZero_of_div (Binary64.isFinite_of_mul relative).1
  have extent : (x.mean.extent : ℚ) ≠ 0 :=
    Nat.cast_ne_zero.mpr (Binary64.extent_pos nonzero isMean).ne'
  have one := Binary64.unity_pos.ne'
  rw [exactRelative]
  field_simp

include uncertain isMean relative mean sigma isFinite

/-- The relative uncertainty and the mean are rounded, but near enough. -/
theorem isFinite_relative (clears : b.clearsOverflow = true) :
    (combined x.relativeSigma zero * a.abs).isFinite = true := by
  have near := mean.near isFinite
  refine Binary64.isFinite_mul ((isFinite_combined _).trans relative)
    ((Binary64.isFinite_abs a).trans isFinite) ?_
  rw [Binary64.extent_abs]
  refine Binary64.no_overflow (near_relativeSigma uncertain isMean relative).le near.le ?_
    (Binary64.extent_le_of_clearsOverflow clears) (exactRelative_nonneg x) (Nat.cast_nonneg _)
    (exactRelative_small uncertain isMean relative) ?_
  · rw [exactRelative_mul uncertain isMean relative]
    exact (sigma.near (Binary64.isFinite_of_clearsOverflow clears)).ge
  · have small := Binary64.extent_small a
    have ge := near.ge
    unfold slip at ge
    linarith

include nonneg in
/-- The other way round: what is scaled is not rounded more than once. -/
theorem isFinite_scaled (clears : (combined x.relativeSigma zero * a.abs).clearsOverflow = true) :
    b.isFinite = true := by
  have near := mean.near isFinite
  have product := (Binary64.near_mul (Binary64.isFinite_of_clearsOverflow clears)).ge
  rw [Binary64.extent_abs] at product
  refine sigma.isFinite ?_
  rw [← exactRelative_mul uncertain isMean relative]
  refine Binary64.no_overflow (near_relativeSigma uncertain isMean relative).ge near.ge product
    (Binary64.extent_le_of_clearsOverflow clears) (Nat.cast_nonneg _)
    (mul_nonneg (Nat.cast_nonneg _) nonneg) ?_ ?_
  · linarith [combined_small relative, Binary64.one_le_headroom]
  · linarith [Binary64.extent_small a]

end Scaling

/-- An uncertainty of zero stays zero in both ways; any other has a mean that can be divided by. -/
theorem finiteAlike_of_scaled
    (form : lifted.sigma = combined x.relativeSigma zero * lifted.mean.abs)
    (scales : lifted.mean.isFinite = true → x.sigma.isFinite = true → x.mean.isFinite = true ∧
      ∃ c, 0 ≤ c ∧ Scaled c x.mean lifted.mean ∧ Scaled c x.sigma plain.sigma) :
    FiniteAlike x plain lifted where
  needs isFinite := by
    rw [form] at isFinite
    obtain ⟨root, mean⟩ := Binary64.isFinite_of_mul isFinite
    exact ⟨(isFinite_combined _).symm.trans root, (Binary64.isFinite_abs _).symm.trans mean⟩
  of_plain relative isFinite clears := by
    rw [form]
    obtain ⟨isMean, c, nonneg, mean, sigma⟩ := scales isFinite (isFinite_sigma relative)
    cases uncertain : x.sigma.isZero with
    | false => exact isFinite_relative uncertain isMean relative mean sigma isFinite clears
    | true =>
      rw [relativeSigma, if_pos uncertain, combined_zero, Binary64.zero_mul_abs isFinite]
      rfl
  of_lifted relative isFinite clears := by
    rw [form] at clears
    obtain ⟨isMean, c, nonneg, mean, sigma⟩ := scales isFinite (isFinite_sigma relative)
    cases uncertain : x.sigma.isZero with
    | false => exact isFinite_scaled uncertain isMean relative nonneg mean sigma isFinite clears
    | true =>
      refine sigma.isFinite ?_
      rw [Binary64.extent_of_isZero uncertain, Nat.cast_zero, zero_mul, mul_zero, zero_add]
      exact Binary64.one_lt_overflow

variable (x k)

theorem finiteAlike_mul : FiniteAlike x (x.mulNumber k) (x.mul (.exact k)) := by
  refine finiteAlike_of_scaled rfl fun isFinite sigmaFinite => ?_
  obtain ⟨isMean, factor⟩ := Binary64.isFinite_of_mul isFinite
  have sigma := scaled_mul sigmaFinite ((Binary64.isFinite_abs k).trans factor)
  rw [Binary64.extent_abs] at sigma
  exact ⟨isMean, _, div_nonneg (Nat.cast_nonneg _) Binary64.unity_pos.le,
    scaled_mul isMean factor, sigma⟩

theorem finiteAlike_div : FiniteAlike x (x.divNumber k) (x.div (.exact k)) := by
  refine finiteAlike_of_scaled rfl fun isFinite sigmaFinite => ?_
  have isMean := Binary64.isFinite_of_div isFinite
  have defined := Binary64.isNan_of_div isFinite
  have nonzero := Binary64.isZero_of_div isFinite
  have sigma := scaled_div sigmaFinite ((Binary64.isNan_abs k).trans defined)
    ((Binary64.isZero_abs k).trans nonzero)
  rw [Binary64.extent_abs] at sigma
  exact ⟨isMean, _, div_nonneg Binary64.unity_pos.le (Nat.cast_nonneg _),
    scaled_div isMean defined nonzero, sigma⟩

end Measurement

namespace Value

variable {plain : Value} {x : Measurement}

theorem center_congr {operation : Value → Value → Value}
    (member : operation ∈ [add, subtract, multiply, divide]) {a a' b b' : Value}
    (left : a.center = a'.center) (right : b.center = b'.center) :
    (operation a b).center = (operation a' b').center := by
  simp only [List.mem_cons, List.not_mem_nil, or_false] at member
  rcases member with rfl | rfl | rfl | rfl
  · rw [center_add, center_add, left, right]
  · rw [center_subtract, center_subtract, left, right]
  · rw [center_multiply, center_multiply, left, right]
  · rw [center_divide, center_divide, left, right]

theorem sigma_of_sum (isPlain : plain.kind ≠ .measurement) {operation : Value → Value → Value}
    (member : operation ∈ [add, subtract]) :
    (operation (measurement x) plain).sigma? = some x.sigma ∧
    (operation plain (measurement x)).sigma? = some x.sigma ∧
    (operation (measurement x) (measurement plain.lift)).lift.sigma.isFinite =
      (x.sigma * x.sigma).isFinite ∧
    (operation (measurement plain.lift) (measurement x)).lift.sigma.isFinite =
      (x.sigma * x.sigma).isFinite := by
  have onRight := Measurement.isFinite_combined x.sigma
  have onLeft := onRight
  rw [Measurement.combined_comm] at onLeft
  simp only [List.mem_cons, List.not_mem_nil, or_false] at member
  cases plain with
  | measurement => exact absurd rfl isPlain
  | positive k | number k =>
    rcases member with rfl | rfl
    · exact ⟨rfl, rfl, onRight, onLeft⟩
    · exact ⟨rfl, rfl, onRight, onLeft⟩

theorem divide_measurement (isPlain : plain.kind ≠ .measurement) :
    plain.divide (measurement x) = (measurement plain.lift).divide (measurement x) := by
  cases plain with
  | measurement => exact absurd rfl isPlain
  | positive | number => rfl

theorem finiteAlike_multiply (isPlain : plain.kind ≠ .measurement) :
    x.FiniteAlike ((measurement x).multiply plain).lift
      ((measurement x).multiply (measurement plain.lift)).lift := by
  cases plain with
  | measurement => exact absurd rfl isPlain
  | positive k | number k => exact x.finiteAlike_mul k

theorem finiteAlike_divide (isPlain : plain.kind ≠ .measurement) :
    x.FiniteAlike ((measurement x).divide plain).lift
      ((measurement x).divide (measurement plain.lift)).lift := by
  cases plain with
  | measurement => exact absurd rfl isPlain
  | positive k | number k => exact x.finiteAlike_div k

/-- A plain number beside a measurement acts as an exact measurement on every mean, and as the
numerator of a quotient in every way. In sums it leaves the uncertainty as it is, where an exact
measurement makes it infinite if its square overflows. In products and as a divisor it scales the
uncertainty, and an exact measurement does so too within the limits of `FiniteAlike`. All results are
measurements, so that lifting one only takes it out of the value. -/
theorem plain_operand_as_exact (isPlain : plain.kind ≠ .measurement) (x : Measurement) :
    let lifted := measurement plain.lift
    (∀ operation ∈ [add, subtract, multiply, divide],
      (operation (measurement x) plain).center = (operation (measurement x) lifted).center ∧
      (operation plain (measurement x)).center = (operation lifted (measurement x)).center) ∧
    (∀ operation ∈ [add, subtract],
      (operation (measurement x) plain).sigma? = some x.sigma ∧
      (operation plain (measurement x)).sigma? = some x.sigma ∧
      (operation (measurement x) lifted).lift.sigma.isFinite = (x.sigma * x.sigma).isFinite ∧
      (operation lifted (measurement x)).lift.sigma.isFinite = (x.sigma * x.sigma).isFinite) ∧
    plain.divide (measurement x) = lifted.divide (measurement x) ∧
    x.FiniteAlike ((measurement x).multiply plain).lift ((measurement x).multiply lifted).lift ∧
    x.FiniteAlike (plain.multiply (measurement x)).lift (lifted.multiply (measurement x)).lift ∧
    x.FiniteAlike ((measurement x).divide plain).lift ((measurement x).divide lifted).lift := by
  intro lifted
  have center : plain.center = lifted.center := (mean_lift plain).symm
  have product : x.FiniteAlike ((measurement x).multiply plain).lift
      ((measurement x).multiply lifted).lift := finiteAlike_multiply isPlain
  refine ⟨fun operation member => ⟨center_congr member rfl center, center_congr member center rfl⟩,
    fun operation member => sigma_of_sum isPlain member, divide_measurement isPlain, product, ?_,
    finiteAlike_divide isPlain⟩
  rwa [multiply_comm plain, multiply_comm lifted]

/-- The double of `3 ± 1` has a finite uncertainty either way. -/
theorem plain_operand_as_exact_two :
    let x : Measurement := ⟨.ofRank false 0x4008000000000000, .one⟩
    let two := number (.ofRank false 0x4000000000000000)
    two.kind ≠ .measurement ∧
      ((measurement x).multiply (measurement two.lift)).lift.sigma.isFinite = true := by
  intro x two
  have isPlain : two.kind ≠ .measurement := by decide
  obtain ⟨-, -, -, product, -⟩ := plain_operand_as_exact isPlain x
  exact ⟨isPlain, product.of_plain (by decide +kernel) (by decide +kernel) (by decide +kernel)⟩

/-- A number and the same number as an exact measurement do not always make uncertainties that are
finite together: the exact one fails at a mean of zero, at a product out of range and where a square
is; and next to the overflow either of them may be rounded to infinity alone. -/
theorem sigma_of_plain_operand_differs :
    let double := Binary64.ofRank false
    let two := double 0x4000000000000000
    let cases : List ((Value → Value → Value) × Measurement × Binary64) :=
      [(multiply, ⟨zero, .one⟩, two),
       (multiply, ⟨double 0x7FE0000000000000, .one⟩, two),
       (add, ⟨.one, double 0x5FF0000000000000⟩, .one),
       (multiply, ⟨double 0x4008000000000000, double 0x400FFFFFFFFFFFFF⟩, double 0x7FD0000000000000),
       (multiply, ⟨double 0x4048800000000000, double 0x4050000000000000⟩, double 0x7F90000000000000)]
    cases.all fun (operation, x, k) =>
      x.mean.isFinite && x.sigma.isFinite && zero.atMost x.sigma && k.isFinite && !k.isZero &&
      (operation (measurement x) (number k)).lift.sigma.isFinite !=
        (operation (measurement x) (measurement (.exact k))).lift.sigma.isFinite := by
  decide +kernel

end Value
end Uncertainty
