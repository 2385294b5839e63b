import Mathlib.Algebra.Order.Field.Basic
import Mathlib.Data.Rat.Cast.Order
import Mathlib.Tactic.FieldSimp
import Mathlib.Tactic.Linarith
import Mathlib.Tactic.NormNum
import Mathlib.Tactic.GCongr
import Mathlib.Tactic.Positivity
import Uncertainty.Proofs.Binary64.Finite
import Uncertainty.Proofs.Binary64.Monotone

/-!
How far rounding leads away from the exact result: by one part in `2 ^ 53`, and by one least unit
where digits are missing. So a product, a quotient or a root is near the exact one, and it is finite
wherever the exact one is in range by more than that. The root of a square is near the number again
unless the square is out of range. Of two products with factors near each other, neither overflows
if one of them is sixteen steps or more below that.
-/
namespace Uncertainty

section Rounding

variable {n d q shift : Nat}

theorem roundHalfEven_close (n d : Nat) (pos : 0 < d) :
    2 * (d * roundHalfEven n d) ≤ 2 * n + d ∧ 2 * n ≤ 2 * (d * roundHalfEven n d) + d := by
  have whole := Nat.div_add_mod n d
  have rest := Nat.mod_lt n pos
  have next : d * (n / d + 1) = d * (n / d) + d := Nat.mul_succ ..
  unfold roundHalfEven
  dsimp only
  split_ifs with below above
  · omega
  · omega
  · rcases Nat.mod_two_eq_zero_or_one (n / d) with even | odd
    · rw [even, Nat.add_zero]
      omega
    · rw [odd]
      omega

namespace Binary64

/-- Significands that fill a binade or stand in the first one have the units that they show. -/
theorem unitsOfRank_shifted (filled : shift = 0 ∨ binadeSize ≤ q) (few : q ≤ 2 * binadeSize) :
    unitsOfRank (q + shift * binadeSize) = q * 2 ^ shift := by
  have size : 0 < binadeSize := by decide
  rcases Nat.lt_or_ge q binadeSize with short | full
  · obtain rfl : shift = 0 := filled.resolve_right (Nat.not_le.mpr short)
    rw [Nat.zero_mul, Nat.add_zero, unitsOfRank, if_pos short, Nat.pow_zero, Nat.mul_one]
  · have far : ¬ q + shift * binadeSize < binadeSize := by omega
    rw [unitsOfRank, if_neg far, Nat.add_mul_div_right _ _ size, Nat.add_mul_mod_self_right,
      Nat.shiftLeft_eq]
    rcases few.lt_or_eq with less | same
    · have binade : q / binadeSize = 1 := Nat.div_eq_of_lt_le (by omega) (by omega)
      have rest : q % binadeSize = q - binadeSize := by
        rw [Nat.mod_eq_sub_mod full, Nat.mod_eq_of_lt (by omega)]
      rw [binade, rest, Nat.add_sub_cancel' full, Nat.add_sub_cancel_left]
    · -- A carry out of the significand is the first one of the next binade.
      rw [same, Nat.mul_div_cancel _ size, Nat.mul_mod_left, Nat.add_zero,
        show 2 + shift - 1 = shift + 1 by omega, Nat.pow_succ]
      ring

theorem unitsOfRank_nearestRank (n d : Nat) :
    unitsOfRank (nearestRank n d) =
      roundHalfEven n (d <<< ((n / d).log2 - 52)) * 2 ^ ((n / d).log2 - 52) := by
  refine unitsOfRank_shifted ?_ ((roundHalfEven_le n _).trans (digits_lt n d))
  rcases Nat.eq_zero_or_pos ((n / d).log2 - 52) with none | dropped
  · exact .inl none
  · exact .inr ((le_digits dropped).trans (le_roundHalfEven n _))

theorem roundHalfEven_exact (q : Nat) (pos : 0 < d) : roundHalfEven (q * d) d = q := by
  unfold roundHalfEven
  dsimp only
  rw [Nat.mul_div_cancel _ pos, Nat.mul_mod_left, if_pos (by omega)]

/-- What is a double already is not rounded. -/
theorem nearestRank_unitsOfRank (rank : Nat) : nearestRank (unitsOfRank rank) 1 = rank := by
  by_cases first : rank < binadeSize
  · have short : (rank / 1).log2 - 52 = 0 := by
      rw [Nat.div_one, Nat.sub_eq_zero_iff_le, Nat.log2_eq_log_two]
      exact (Nat.log_mono_right first.le).trans (by decide +kernel)
    have exact := roundHalfEven_exact rank (d := 1) one_pos
    rw [Nat.mul_one] at exact
    rw [unitsOfRank, if_pos first, nearestRank, short, Nat.zero_mul, Nat.add_zero]
    exact exact
  · obtain ⟨binade, isBinade⟩ : ∃ binade, rank / binadeSize = binade + 1 :=
      Nat.exists_eq_add_of_le' ((Nat.one_le_div_iff (by decide)).mpr (Nat.not_lt.mp first))
    have whole := Nat.div_add_mod rank binadeSize
    have rest : rank % binadeSize < binadeSize := Nat.mod_lt _ (by decide)
    have fits : binadeSize + rank % binadeSize < 2 ^ 53 :=
      lt_of_lt_of_eq (Nat.add_lt_add_left rest _) rfl
    have units : unitsOfRank rank = (binadeSize + rank % binadeSize) * 2 ^ binade := by
      rw [unitsOfRank, if_neg first, isBinade, Nat.add_sub_cancel, Nat.shiftLeft_eq]
    have digits : ((binadeSize + rank % binadeSize) * 2 ^ binade).log2 = 52 + binade := by
      refine (Nat.log2_eq_iff (by positivity)).mpr ⟨?_, ?_⟩
      · rw [Nat.pow_add]
        exact Nat.mul_le_mul_right _ (Nat.le_add_right _ _)
      · rw [show 52 + binade + 1 = 53 + binade by omega, Nat.pow_add]
        exact Nat.mul_lt_mul_of_pos_right fits (Nat.two_pow_pos _)
    rw [nearestRank, Nat.div_one, units, digits, Nat.add_sub_cancel_left, Nat.one_shiftLeft,
      roundHalfEven_exact _ (Nat.two_pow_pos _)]
    rw [isBinade, Nat.mul_succ] at whole
    rw [Nat.mul_comm binade]
    omega

end Binary64
end Rounding

/-- Two magnitudes of which each is at most the other, up to a factor and a tolerance. -/
structure Near (factor tolerance a b : ℚ) : Prop where
  le : a ≤ factor * b + tolerance
  ge : b ≤ factor * a + tolerance

namespace Near

variable {f g τ σ a b c : ℚ}

theorem mono (near : Near f τ a b) (le : τ ≤ σ) : Near f σ a b :=
  ⟨near.le.trans (add_le_add_right le _), near.ge.trans (add_le_add_right le _)⟩

theorem chain (first : a ≤ f * b + τ) (second : b ≤ g * c + σ) (hf : 0 ≤ f) (hf' : f ≤ 2)
    (hτ : 0 ≤ τ) (hσ : 0 ≤ σ) : a ≤ f * g * c + 2 * (τ + σ) := by
  calc a ≤ f * b + τ := first
    _ ≤ f * (g * c + σ) + τ := by gcongr
    _ = f * g * c + (f * σ + τ) := by ring
    _ ≤ f * g * c + (2 * σ + 2 * τ) := by gcongr; linarith
    _ = f * g * c + 2 * (τ + σ) := by ring

/-- Factors up to two, as all are that come from a few roundings, at most double the tolerances. -/
theorem trans (first : Near f τ a b) (second : Near g σ b c) (hf : 0 ≤ f) (hf' : f ≤ 2)
    (hg : 0 ≤ g) (hg' : g ≤ 2) (hτ : 0 ≤ τ) (hσ : 0 ≤ σ) : Near (f * g) (2 * (τ + σ)) a c where
  le := chain first.le second.le hf hf' hτ hσ
  ge := by
    rw [mul_comm f, add_comm τ]
    exact chain second.ge first.ge hg hg' hσ hτ

end Near

namespace Binary64

/-- The factor by which rounding to 53 binary digits may be off. -/
def slip : ℚ :=
  1 + 1 / 2 ^ 53

theorem one_le_slip : 1 ≤ slip := by
  norm_num [slip]

theorem slip_pos : 0 < slip :=
  one_pos.trans_le one_le_slip

theorem slip_le_two : slip ≤ 2 := by
  norm_num [slip]

theorem slip_mul_slip_le_two : slip * slip ≤ 2 := by
  norm_num [slip]

theorem digits_close (n shift : Nat) {d : Nat} (pos : 0 < d) :
    (roundHalfEven n (d <<< shift) * 2 ^ shift : ℚ) ≤ n / d + 2 ^ shift / 2 ∧
    (n / d : ℚ) ≤ roundHalfEven n (d <<< shift) * 2 ^ shift + 2 ^ shift / 2 := by
  have dPos : (0 : ℚ) < d := Nat.cast_pos.mpr pos
  have close := roundHalfEven_close n (d <<< shift) (by rw [Nat.shiftLeft_eq]; positivity)
  generalize roundHalfEven n (d <<< shift) = digits at *
  rw [Nat.shiftLeft_eq] at close
  obtain ⟨below, above⟩ := close
  constructor
  · have cast : (2 * (d * 2 ^ shift * digits) : ℚ) ≤ 2 * n + d * 2 ^ shift := by exact_mod_cast below
    rw [div_add' _ _ _ dPos.ne', le_div_iff₀ dPos]
    linarith
  · have cast : (2 * n : ℚ) ≤ 2 * (d * 2 ^ shift * digits) + d * 2 ^ shift := by exact_mod_cast above
    rw [div_le_iff₀ dPos]
    linarith

/-- Where digits are dropped, the last one kept is the 53rd. -/
theorem digits_wide {n d : Nat} (pos : 0 < d) (dropped : 0 < (n / d).log2 - 52) :
    (2 ^ 52 * 2 ^ ((n / d).log2 - 52) : ℚ) ≤ n / d ∧
    (2 ^ 52 : ℚ) ≤ roundHalfEven n (d <<< ((n / d).log2 - 52)) := by
  have full := le_digits dropped
  have kept : binadeSize ≤ roundHalfEven n (d <<< ((n / d).log2 - 52)) :=
    full.trans (le_roundHalfEven n _)
  generalize (n / d).log2 - 52 = shift at *
  rw [Nat.shiftLeft_eq, Nat.le_div_iff_mul_le (by positivity)] at full
  have cast : (2 ^ 52 * (d * 2 ^ shift) : ℚ) ≤ n := by exact_mod_cast full
  refine ⟨?_, by exact_mod_cast kept⟩
  rw [le_div_iff₀ (Nat.cast_pos.mpr pos)]
  linarith

/-- Rounding is off by a half of the last digit kept, of which there are 53 unless the result is a
few units only. -/
theorem near_nearestRank (n : Nat) {d : Nat} (pos : 0 < d) :
    Near slip 1 (unitsOfRank (nearestRank n d)) (n / d) := by
  obtain ⟨below, above⟩ := digits_close n ((n / d).log2 - 52) pos
  have wide := digits_wide (n := n) pos
  rw [unitsOfRank_nearestRank]
  generalize roundHalfEven n (d <<< ((n / d).log2 - 52)) = digits at *
  generalize (n / d).log2 - 52 = shift at *
  push_cast
  rcases Nat.eq_zero_or_pos shift with rfl | dropped
  · have quotient : (0 : ℚ) ≤ n / d := by positivity
    have kept : (0 : ℚ) ≤ digits := Nat.cast_nonneg _
    constructor <;> unfold slip <;> linarith
  · obtain ⟨exactWide, kept⟩ := wide dropped
    have keptWide : (2 ^ 52 * 2 ^ shift : ℚ) ≤ digits * 2 ^ shift := by gcongr
    constructor <;> unfold slip <;> linarith

def extent : Binary64 → Nat
  | finite _ rank => unitsOfRank rank
  | nan | infinite _ => 0

variable {x y : Binary64} {s : Bool} {n d : Nat}

@[simp] theorem extent_abs (x : Binary64) : x.abs.extent = x.extent := by
  cases x <;> rfl

theorem extent_lt (x : Binary64) : x.extent < unitsOfRank finiteRanks := by
  cases x with
  | nan | infinite => exact (by decide +kernel : 0 < unitsOfRank finiteRanks)
  | finite s rank =>
    change unitsOfRank rank < unitsOfRank finiteRanks
    by_cases first : rank.val < binadeSize
    · rw [unitsOfRank, if_pos first]
      exact first.trans (by decide +kernel)
    · have binade : rank.val / binadeSize < 2047 := Nat.div_lt_of_lt_mul rank.isLt
      calc unitsOfRank rank < binadeSize * 2 ^ (rank.val / binadeSize) :=
            (unitsOfRank_binade rank (Nat.not_lt.mp first)).2
        _ ≤ binadeSize * 2 ^ 2046 := by
            gcongr
            · decide
            · omega
        _ = unitsOfRank finiteRanks := by decide +kernel

theorem extent_of_isZero (isZero : x.isZero = true) : x.extent = 0 := by
  cases x with
  | nan | infinite => rfl
  | finite s rank =>
    have none : rank.val = 0 := of_decide_eq_true isZero
    rw [extent, none]
    rfl

theorem extent_pos (nonzero : x.isZero = false) (isFinite : x.isFinite = true) : 0 < x.extent := by
  obtain ⟨s, rank, rfl⟩ := exists_finite isFinite
  exact Nat.pos_of_ne_zero (unitsOfRank_pos (of_decide_eq_false nonzero))

def unity : ℚ :=
  2 ^ 1074

/-- The first magnitude out of range in least units. -/
def overflow : ℚ :=
  unitsOfRank finiteRanks

theorem unity_pos : 0 < unity :=
  pow_pos two_pos 1074

theorem isFinite_ofQuotient :
    (ofQuotient s n d).isFinite = true ↔ nearestRank n d < finiteRanks := by
  unfold ofQuotient ofRank
  split
  case isTrue bound => exact iff_of_true rfl bound
  case isFalse beyond => exact iff_of_false Bool.false_ne_true beyond

theorem near_ofQuotient (pos : 0 < d) (isFinite : (ofQuotient s n d).isFinite = true) :
    Near slip 1 (ofQuotient s n d).extent (n / d) := by
  have bound := isFinite_ofQuotient.mp isFinite
  rw [ofQuotient, ofRank, dif_pos bound]
  exact near_nearestRank n pos

/-- A quotient that rounding cannot lead out of range is finite. -/
theorem isFinite_ofQuotient_of_lt (pos : 0 < d) (small : slip * (n / d) + 1 < overflow) :
    (ofQuotient s n d).isFinite = true := by
  refine isFinite_ofQuotient.mpr (Nat.lt_of_not_le fun beyond => ?_)
  have units : overflow ≤ unitsOfRank (nearestRank n d) := Nat.cast_le.mpr (unitsOfRank_mono beyond)
  exact absurd (units.trans (near_nearestRank n pos).le) (not_le.mpr small)

theorem mul_eq_ofQuotient (left : x.isFinite = true) (right : y.isFinite = true) :
    ∃ s, x * y = ofQuotient s (x.extent * y.extent) unitsOfOne := by
  obtain ⟨s, a, rfl⟩ := exists_finite left
  obtain ⟨t, b, rfl⟩ := exists_finite right
  exact ⟨_, rfl⟩

theorem div_eq_ofQuotient (left : x.isFinite = true) (right : y.isFinite = true)
    (nonzero : y.isZero = false) :
    ∃ s, x / y = ofQuotient s (x.extent <<< 1074) y.extent := by
  obtain ⟨s, a, rfl⟩ := exists_finite left
  obtain ⟨t, b, rfl⟩ := exists_finite right
  exact ⟨s != t, if_pos (of_decide_eq_false nonzero)⟩

theorem cast_shiftLeft (n shift : Nat) : ((n <<< shift : Nat) : ℚ) = n * 2 ^ shift := by
  rw [Nat.shiftLeft_eq]
  push_cast
  rfl

theorem cast_unitsOfOne : (unitsOfOne : ℚ) = unity :=
  (cast_shiftLeft 1 1074).trans (by rw [Nat.cast_one, one_mul, unity])

theorem cast_extent_shiftLeft (x : Binary64) :
    ((x.extent <<< 1074 : Nat) : ℚ) = x.extent * unity :=
  cast_shiftLeft ..

theorem near_mul (isFinite : (x * y).isFinite = true) :
    Near slip 1 (x * y).extent (x.extent * y.extent / unity) := by
  obtain ⟨left, right⟩ := isFinite_of_mul isFinite
  obtain ⟨s, same⟩ := mul_eq_ofQuotient left right
  rw [same] at isFinite ⊢
  have near := near_ofQuotient (by decide) isFinite
  rwa [cast_unitsOfOne, Nat.cast_mul] at near

theorem isFinite_mul (left : x.isFinite = true) (right : y.isFinite = true)
    (small : slip * (x.extent * y.extent / unity) + 1 < overflow) :
    (x * y).isFinite = true := by
  obtain ⟨s, same⟩ := mul_eq_ofQuotient left right
  rw [same]
  refine isFinite_ofQuotient_of_lt (by decide) ?_
  rwa [cast_unitsOfOne, Nat.cast_mul]

theorem near_div (left : x.isFinite = true) (right : y.isFinite = true)
    (isFinite : (x / y).isFinite = true) :
    Near slip 1 (x / y).extent (x.extent * unity / y.extent) := by
  have nonzero := isZero_of_div isFinite
  obtain ⟨s, same⟩ := div_eq_ofQuotient left right nonzero
  rw [same] at isFinite ⊢
  have near := near_ofQuotient (extent_pos nonzero right) isFinite
  rwa [cast_extent_shiftLeft] at near

theorem isFinite_div (left : x.isFinite = true) (right : y.isFinite = true)
    (nonzero : y.isZero = false)
    (small : slip * (x.extent * unity / y.extent) + 1 < overflow) :
    (x / y).isFinite = true := by
  obtain ⟨s, same⟩ := div_eq_ofQuotient left right nonzero
  rw [same]
  refine isFinite_ofQuotient_of_lt (extent_pos nonzero right) ?_
  rwa [cast_extent_shiftLeft]

/-- Only minus zero is changed by adding zero. -/
theorem add_zero (clear : x.SignClear) : x + zero = x := by
  change add x zero = x
  cases x with
  | nan | infinite => rfl
  | finite s rank =>
    obtain rfl : s = false := clear
    have none : units false ⟨0, by decide⟩ = 0 := rfl
    rw [zero, add, none, Int.add_zero, ofUnits, units, signed, if_neg Bool.false_ne_true,
      Int.natAbs_natCast, ofQuotient, nearestRank_unitsOfRank, ofRank, dif_pos rank.isLt]
    congr
    split <;> simp

theorem sqrt_eq_ofQuotient (isFinite : x.isFinite = true) (clear : x.SignClear)
    (nonzero : x.isZero = false) :
    ∃ rest ≤ 1, x.sqrt = ofQuotient false (2 * Nat.sqrt (x.extent <<< 1074) + rest) 2 := by
  obtain ⟨s, rank, rfl⟩ := exists_finite isFinite
  obtain rfl : s = false := clear
  rw [sqrt, if_neg (of_decide_eq_false nonzero), if_neg Bool.false_ne_true]
  dsimp only
  rw [wholeRoot_eq_sqrt (lt_four_pow _)]
  exact ⟨_, by split <;> decide, rfl⟩

theorem root_lt (x : Binary64) : Nat.sqrt (x.extent <<< 1074) < 2 ^ 1586 := by
  rw [Nat.sqrt_lt', Nat.shiftLeft_eq]
  calc x.extent * 2 ^ 1074 < unitsOfRank finiteRanks * 2 ^ 1074 :=
        Nat.mul_lt_mul_of_pos_right (extent_lt x) (by decide +kernel)
    _ = (2 ^ 1586) ^ 2 := by decide +kernel

theorem isFinite_sqrt (clear : x.SignClear) : x.sqrt.isFinite = x.isFinite := by
  cases x with
  | nan => rfl
  | infinite s =>
    obtain rfl : s = false := clear
    rfl
  | finite s rank =>
    cases zero? : (finite s rank).isZero with
    | true =>
      rw [eq_zero_of_isZero zero? clear]
      rfl
    | false =>
      obtain ⟨rest, small, same⟩ := sqrt_eq_ofQuotient rfl clear zero?
      rw [same]
      refine isFinite_ofQuotient.mpr (lt_of_le_of_lt (nearestRank_mono ?_)
        (by decide +kernel : nearestRank (2 * 2 ^ 1586) 2 < finiteRanks))
      calc 2 * Nat.sqrt ((finite s rank).extent <<< 1074) + rest
          ≤ 2 * (Nat.sqrt ((finite s rank).extent <<< 1074) + 1) := by omega
        _ ≤ 2 * 2 ^ 1586 := Nat.mul_le_mul_left 2 (root_lt _)

/-- A root, rounded, is next to the whole part of the exact one. -/
theorem near_sqrt (isFinite : x.isFinite = true) (clear : x.SignClear) :
    Near slip 2 x.sqrt.extent (Nat.sqrt (x.extent <<< 1074)) := by
  cases zero? : x.isZero with
  | true =>
    obtain rfl := eq_zero_of_isZero zero? clear
    have root : Nat.sqrt (zero.extent <<< 1074) = 0 := by decide +kernel
    have units : zero.sqrt.extent = 0 := rfl
    rw [root, units]
    constructor <;> norm_num
  | false =>
    have finiteRoot := (isFinite_sqrt clear).trans isFinite
    obtain ⟨rest, small, same⟩ := sqrt_eq_ofQuotient isFinite clear zero?
    generalize Nat.sqrt (x.extent <<< 1074) = root at *
    rw [same] at finiteRoot ⊢
    obtain ⟨le, ge⟩ := near_ofQuotient two_pos finiteRoot
    have none : (0 : ℚ) ≤ rest := Nat.cast_nonneg rest
    have small : (rest : ℚ) ≤ 1 := by exact_mod_cast small
    have half : ((2 * root + rest : Nat) / (2 : Nat) : ℚ) = root + rest / 2 := by
      push_cast
      ring
    rw [half] at le ge
    have few := slip_le_two
    constructor
    · linarith [mul_le_mul_of_nonneg_right few none]
    · linarith

/-- A bound on squares, with a tolerance inside of the square. -/
theorem le_of_sq_le_add {f a b c : ℚ} (factor : 1 ≤ f) (hb : 0 ≤ b) (hc : 0 ≤ c)
    (le : a ^ 2 ≤ f * b ^ 2 + c ^ 2) : a ≤ f * b + c := by
  refine le_of_sq_le_sq (le.trans ?_) (by positivity)
  have cross : 0 ≤ f * b * c := by positivity
  have wide : f * b ^ 2 ≤ f ^ 2 * b ^ 2 := by
    gcongr
    exact le_self_pow₀ factor two_ne_zero
  linarith [add_sq (f * b) c, mul_pow f b 2]

/-- The whole part `root` of the root of `square`, which is `a * a` after rounding, is off from `a`
by no more than the root of a least unit and one. -/
theorem near_of_sq {square root a unit : ℚ} (near : Near slip 1 square (a * a / unit ^ 2))
    (below : root ^ 2 ≤ square * unit ^ 2) (above : square * unit ^ 2 ≤ (root + 1) ^ 2)
    (hr : 0 ≤ root) (ha : 0 ≤ a) (wide : 2 ≤ unit) : Near slip (unit * 2) root a := by
  have factor := one_le_slip
  have factor' := slip_le_two
  have scaled : a * a / unit ^ 2 * unit ^ 2 = a ^ 2 := by
    rw [div_mul_cancel₀ _ (by positivity), sq]
  constructor
  · have squares : root ^ 2 ≤ slip * a ^ 2 + unit ^ 2 := by
      calc root ^ 2 ≤ square * unit ^ 2 := below
        _ ≤ (slip * (a * a / unit ^ 2) + 1) * unit ^ 2 := by gcongr; exact near.le
        _ = slip * a ^ 2 + unit ^ 2 := by rw [add_mul, mul_assoc, scaled, one_mul]
    linarith [le_of_sq_le_add factor ha (by linarith) squares]
  · have squares : a ^ 2 ≤ slip * (root + 1) ^ 2 + unit ^ 2 := by
      calc a ^ 2 = a * a / unit ^ 2 * unit ^ 2 := scaled.symm
        _ ≤ (slip * square + 1) * unit ^ 2 := by gcongr; exact near.ge
        _ = slip * (square * unit ^ 2) + unit ^ 2 := by ring
        _ ≤ slip * (root + 1) ^ 2 + unit ^ 2 := by gcongr
    linarith [le_of_sq_le_add factor (by linarith) (by linarith) squares]

def rootOfOne : ℚ :=
  2 ^ 537

theorem rootOfOne_sq : rootOfOne ^ 2 = unity :=
  (pow_mul 2 537 2).symm

theorem two_le_rootOfOne : 2 ≤ rootOfOne :=
  le_self_pow₀ one_le_two (by decide)

theorem near_root_square (isFinite : (x * x).isFinite = true) :
    Near slip (rootOfOne * 2) (Nat.sqrt ((x * x).extent <<< 1074)) x.extent := by
  have near := near_mul isFinite
  have below : (Nat.sqrt ((x * x).extent <<< 1074) : ℚ) ^ 2 ≤ ((x * x).extent <<< 1074 : Nat) := by
    exact_mod_cast Nat.sqrt_le' ((x * x).extent <<< 1074)
  have above : ((x * x).extent <<< 1074 : Nat) ≤ (Nat.sqrt ((x * x).extent <<< 1074) + 1 : ℚ) ^ 2 := by
    exact_mod_cast (Nat.lt_succ_sqrt' ((x * x).extent <<< 1074)).le
  rw [cast_extent_shiftLeft, ← rootOfOne_sq] at below above
  rw [← rootOfOne_sq] at near
  exact near_of_sq near below above (Nat.cast_nonneg _) (Nat.cast_nonneg _) two_le_rootOfOne

/-- The root of a square, both rounded, comes back to the number. -/
theorem near_sqrt_square (isFinite : (x * x).isFinite = true) :
    Near (slip * slip) (rootOfOne * 8) (x * x).sqrt.extent x.extent := by
  have wide := two_le_rootOfOne
  have chain := (near_sqrt isFinite (signClear_square x)).trans (near_root_square isFinite)
    slip_pos.le slip_le_two slip_pos.le slip_le_two two_pos.le (by linarith)
  exact chain.mono (by linarith)

section Overflow

/-- Finite, and sixteen or more steps away from infinity. -/
def clearsOverflow : Binary64 → Bool
  | finite _ rank => rank.val + 16 ≤ finiteRanks
  | nan | infinite _ => false

/-- A number of units. The first magnitude out of range has `2 ^ 68` times as many, and sixteen steps
before that are `2 ^ 19` times as many. -/
def headroom : ℚ :=
  2 ^ 2030

theorem overflow_eq : overflow = 2 ^ 68 * headroom := by
  have units : unitsOfRank finiteRanks = 2 ^ 68 <<< 2030 := by decide +kernel
  rw [overflow, units, cast_shiftLeft, headroom]
  norm_num

theorem one_le_headroom : 1 ≤ headroom :=
  one_le_pow₀ one_le_two

theorem one_lt_overflow : 1 < overflow := by
  rw [overflow_eq]
  linarith [one_le_headroom]

theorem two_pow_le_rootOfOne : 2 ^ 70 ≤ rootOfOne :=
  pow_le_pow_right₀ one_le_two (by decide)

theorem isFinite_of_clearsOverflow (clears : x.clearsOverflow = true) : x.isFinite = true := by
  cases x with
  | nan | infinite => cases clears
  | finite => rfl

theorem extent_le_of_clearsOverflow (clears : x.clearsOverflow = true) :
    (x.extent : ℚ) ≤ (2 ^ 68 - 2 ^ 19) * headroom := by
  obtain ⟨s, rank, rfl⟩ := exists_finite (isFinite_of_clearsOverflow clears)
  have below : rank.val ≤ finiteRanks - 16 := Nat.le_sub_of_add_le (of_decide_eq_true clears)
  have units : unitsOfRank (finiteRanks - 16) = (2 ^ 68 - 2 ^ 19) <<< 2030 := by decide +kernel
  calc (unitsOfRank rank : ℚ) ≤ unitsOfRank (finiteRanks - 16) := by
        exact_mod_cast unitsOfRank_mono below
    _ = (2 ^ 68 - 2 ^ 19) * headroom := by
        rw [units, cast_shiftLeft, headroom]
        norm_num

theorem extent_small (x : Binary64) : x.extent * 2 + 1 ≤ headroom * rootOfOne := by
  have extent : (x.extent : ℚ) ≤ overflow := Nat.cast_le.mpr (extent_lt x).le
  have one := one_le_headroom
  have wide : headroom * 2 ^ 70 ≤ headroom * rootOfOne :=
    mul_le_mul_of_nonneg_left two_pow_le_rootOfOne (by linarith)
  rw [overflow_eq] at extent
  linarith

theorem rootOfOne_le : rootOfOne * 64 ≤ headroom := by
  calc rootOfOne * 64 = 2 ^ (537 + 6) := by rw [rootOfOne, pow_add]; norm_num
    _ ≤ headroom := pow_le_pow_right₀ one_le_two (by decide)

theorem sqrt_extent_le (isFinite : x.isFinite = true) (clear : x.SignClear) :
    x.sqrt.extent * 64 ≤ headroom := by
  have near := (near_sqrt isFinite clear).le
  have root : (Nat.sqrt (x.extent <<< 1074) : ℚ) ≤ 2 ^ 1586 := by
    exact_mod_cast (root_lt x).le
  have wide : (2 ^ 1586 * 256 : ℚ) ≤ headroom := by
    calc (2 ^ 1586 * 256 : ℚ) = 2 ^ (1586 + 8) := by rw [pow_add]; norm_num
      _ ≤ headroom := pow_le_pow_right₀ one_le_two (by decide)
  have one : (1 : ℚ) ≤ 2 ^ 1586 := one_le_pow₀ one_le_two
  generalize (2 ^ 1586 : ℚ) = bound at *
  unfold slip at near
  linarith

/-- Where a product is sixteen steps below the overflow, the product of other factors that are near
the given ones does not overflow either. The bounds on these keep the tolerances small. -/
theorem no_overflow {a a' b b' product : ℚ}
    (left : a' ≤ slip * slip * slip * a + rootOfOne * 32) (right : b' ≤ slip * b + 1)
    (near : a * b / unity ≤ slip * product + 1) (clears : product ≤ (2 ^ 68 - 2 ^ 19) * headroom)
    (ha : 0 ≤ a) (hb' : 0 ≤ b') (small : a ≤ headroom) (small' : b ≤ headroom * rootOfOne) :
    slip * (a' * b' / unity) + 1 < overflow := by
  have two := two_le_rootOfOne
  have one := one_le_headroom
  rw [← rootOfOne_sq] at near ⊢
  rw [overflow_eq]
  generalize rootOfOne = unit at *
  generalize headroom = large at *
  have slipPos := slip_pos
  have unitPos : 0 < unit := by linarith
  have aSmall : a / unit ^ 2 ≤ large := (div_le_self ha (one_le_pow₀ (by linarith))).trans small
  have bSmall : b / unit ≤ large := (div_le_iff₀ unitPos).mpr small'
  have rest : 32 / unit ≤ 32 := div_le_self (by norm_num) (by linarith)
  have near' : a' * b' / unit ^ 2 ≤
      slip ^ 4 * (slip * product + 1) + slip ^ 3 * large + slip * 32 * large + 32 := by
    calc a' * b' / unit ^ 2
        ≤ (slip * slip * slip * a + unit * 32) * (slip * b + 1) / unit ^ 2 := by gcongr
      _ = slip ^ 4 * (a * b / unit ^ 2) + slip ^ 3 * (a / unit ^ 2) + slip * 32 * (b / unit) +
          32 / unit := by
          field_simp
          ring
      _ ≤ slip ^ 4 * (slip * product + 1) + slip ^ 3 * large + slip * 32 * large + 32 := by gcongr
  unfold slip at *
  linarith

end Overflow

end Binary64

end Uncertainty
