import Mathlib.Data.Nat.Sqrt
import Mathlib.Data.Nat.Log
import Mathlib.Tactic.Ring
import Uncertainty.Proofs.Binary64.Arithmetic

/-!
Arithmetic keeps the order of magnitudes. Rounding to nearest never puts a larger quotient on a
smaller rank, so that products, quotients and roots are larger in magnitude if their operands are,
and sums are if no minus sign is among them. Where there is no number, there is no magnitude.
-/
namespace Uncertainty

section Rounding

variable {n n' d rank rank' : Nat}

theorem le_roundHalfEven (n d : Nat) : n / d ≤ roundHalfEven n d := by
  unfold roundHalfEven
  dsimp only
  split_ifs <;> omega

theorem roundHalfEven_le (n d : Nat) : roundHalfEven n d ≤ n / d + 1 := by
  unfold roundHalfEven
  dsimp only
  split_ifs <;> omega

/-- Within one step between whole numbers, the remainders decide. -/
theorem roundHalfEven_mono (le : n ≤ n') : roundHalfEven n d ≤ roundHalfEven n' d := by
  have quotients : n / d ≤ n' / d := Nat.div_le_div_right le
  rcases quotients.lt_or_eq with less | same
  · exact (roundHalfEven_le n d).trans (Nat.le_trans less (le_roundHalfEven n' d))
  · have remainders : n % d ≤ n' % d := by
      have whole := Nat.div_add_mod n d
      have whole' := Nat.div_add_mod n' d
      rw [same] at whole
      omega
    unfold roundHalfEven
    dsimp only
    rw [same]
    split_ifs <;> omega

namespace Binary64

theorem div_shiftLeft (n d shift : Nat) : n / (d <<< shift) = n / d / 2 ^ shift := by
  rw [Nat.shiftLeft_eq, Nat.div_div_eq_div_mul]

theorem digits_lt (n d : Nat) : n / (d <<< ((n / d).log2 - 52)) < 2 * binadeSize := by
  have bound : n / d < 2 ^ ((n / d).log2 + 1) := Nat.lt_log2_self
  have wider : 2 ^ ((n / d).log2 + 1) ≤ 2 ^ 53 * 2 ^ ((n / d).log2 - 52) := by
    rw [← Nat.pow_add]
    exact Nat.pow_le_pow_right two_pos (by omega)
  rw [div_shiftLeft, Nat.div_lt_iff_lt_mul (Nat.two_pow_pos _)]
  exact lt_of_lt_of_le bound wider

theorem le_digits (dropped : 0 < (n / d).log2 - 52) :
    binadeSize ≤ n / (d <<< ((n / d).log2 - 52)) := by
  have nonzero : n / d ≠ 0 := by
    intro zero
    rw [zero] at dropped
    cases dropped
  have bound := Nat.log2_self_le nonzero
  have split : 2 ^ (n / d).log2 = 2 ^ 52 * 2 ^ ((n / d).log2 - 52) := by
    rw [← Nat.pow_add]
    congr 1
    omega
  rw [div_shiftLeft, Nat.le_div_iff_mul_le (Nat.two_pow_pos _)]
  rwa [split] at bound

/-- Where the larger quotient drops more digits, it is in a higher binade. -/
theorem nearestRank_mono (le : n ≤ n') : nearestRank n d ≤ nearestRank n' d := by
  have shifts : (n / d).log2 - 52 ≤ (n' / d).log2 - 52 := by
    rw [Nat.log2_eq_log_two, Nat.log2_eq_log_two]
    exact Nat.sub_le_sub_right (Nat.log_mono_right (Nat.div_le_div_right le)) 52
  rcases shifts.lt_or_eq with less | same
  · have below := (roundHalfEven_le n _).trans (digits_lt n d)
    have above := (le_digits (Nat.zero_lt_of_lt less)).trans (le_roundHalfEven n' _)
    have binades := Nat.mul_le_mul_right binadeSize less
    unfold nearestRank
    dsimp only
    rw [Nat.succ_mul] at binades
    omega
  · unfold nearestRank
    dsimp only
    rw [same]
    exact Nat.add_le_add_right (roundHalfEven_mono le) _

theorem unitsOfRank_binade (rank : Nat) (far : binadeSize ≤ rank) :
    binadeSize * 2 ^ (rank / binadeSize - 1) ≤ unitsOfRank rank ∧
      unitsOfRank rank < binadeSize * 2 ^ (rank / binadeSize) := by
  have rest : rank % binadeSize < binadeSize := Nat.mod_lt _ (by decide)
  have first : 1 ≤ rank / binadeSize := (Nat.one_le_div_iff (by decide)).mpr far
  have doubled : binadeSize * 2 ^ (rank / binadeSize) =
      2 * binadeSize * 2 ^ (rank / binadeSize - 1) := by
    obtain ⟨binade, same⟩ := Nat.exists_eq_add_of_le' first
    rw [same, Nat.add_sub_cancel]
    ring
  rw [unitsOfRank, if_neg (Nat.not_lt.mpr far), Nat.shiftLeft_eq, doubled]
  constructor
  · exact Nat.mul_le_mul_right _ (Nat.le_add_right _ _)
  · exact Nat.mul_lt_mul_of_pos_right (by omega) (Nat.two_pow_pos _)

/-- In a binade the units grow with the rank, and all of it is below the next one. -/
theorem unitsOfRank_mono (le : rank ≤ rank') : unitsOfRank rank ≤ unitsOfRank rank' := by
  by_cases far : binadeSize ≤ rank
  · have far' := far.trans le
    have binades : rank / binadeSize ≤ rank' / binadeSize := Nat.div_le_div_right le
    rcases binades.lt_or_eq with less | same
    · have below := (unitsOfRank_binade rank far).2
      have above := (unitsOfRank_binade rank' far').1
      have between : binadeSize * 2 ^ (rank / binadeSize) ≤
          binadeSize * 2 ^ (rank' / binadeSize - 1) :=
        Nat.mul_le_mul_left _ (Nat.pow_le_pow_right two_pos (by omega))
      exact (below.le.trans between).trans above
    · have whole := Nat.div_add_mod rank binadeSize
      have whole' := Nat.div_add_mod rank' binadeSize
      rw [unitsOfRank, unitsOfRank, if_neg (Nat.not_lt.mpr far), if_neg (Nat.not_lt.mpr far'), same,
        Nat.shiftLeft_eq, Nat.shiftLeft_eq]
      rw [same] at whole
      exact Nat.mul_le_mul_right _ (by omega)
  · rw [unitsOfRank, if_pos (Nat.not_le.mp far)]
    by_cases far' : binadeSize ≤ rank'
    · have above := (unitsOfRank_binade rank' far').1
      have one := Nat.mul_le_mul_left binadeSize (Nat.two_pow_pos (rank' / binadeSize - 1))
      omega
    · rwa [unitsOfRank, if_pos (Nat.not_le.mp far')]

end Binary64
end Rounding

section Root

variable {pairs n n' : Nat}

theorem wholeRoot_sq_le (pairs n : Nat) : wholeRoot pairs n * wholeRoot pairs n ≤ n := by
  induction pairs generalizing n with
  | zero => exact Nat.zero_le n
  | succ pairs ih =>
    rw [wholeRoot]
    split
    case isTrue fits => exact fits
    case isFalse =>
      have quarter := ih (n / 4)
      calc 2 * wholeRoot pairs (n / 4) * (2 * wholeRoot pairs (n / 4))
          = 4 * (wholeRoot pairs (n / 4) * wholeRoot pairs (n / 4)) := by ring
        _ ≤ n := by omega

theorem lt_succ_wholeRoot_sq (enough : n < 4 ^ pairs) :
    n < (wholeRoot pairs n + 1) * (wholeRoot pairs n + 1) := by
  induction pairs generalizing n with
  | zero =>
    rw [wholeRoot]
    omega
  | succ pairs ih =>
    rw [wholeRoot]
    split
    case isTrue =>
      have quarter := ih (n := n / 4) (by omega)
      calc n < 4 * ((wholeRoot pairs (n / 4) + 1) * (wholeRoot pairs (n / 4) + 1)) := by omega
        _ = (2 * wholeRoot pairs (n / 4) + 1 + 1) * (2 * wholeRoot pairs (n / 4) + 1 + 1) := by ring
    case isFalse exceeds => exact Nat.not_le.mp exceeds

theorem wholeRoot_eq_sqrt (enough : n < 4 ^ pairs) : wholeRoot pairs n = Nat.sqrt n :=
  Nat.eq_sqrt.mpr ⟨wholeRoot_sq_le pairs n, lt_succ_wholeRoot_sq enough⟩

theorem lt_four_pow (n : Nat) : n < 4 ^ (n.log2 / 2 + 1) := by
  calc n < 2 ^ (n.log2 + 1) := Nat.lt_log2_self
    _ ≤ 2 ^ (2 * (n.log2 / 2 + 1)) := Nat.pow_le_pow_right two_pos (by omega)
    _ = 4 ^ (n.log2 / 2 + 1) := by rw [Nat.pow_mul]

/-- Twice the whole part of a root, and one if anything is left, is what its rounding sees. -/
theorem twice_sqrt_mono (le : n ≤ n') :
    (2 * Nat.sqrt n + if Nat.sqrt n * Nat.sqrt n = n then 0 else 1) ≤
      2 * Nat.sqrt n' + if Nat.sqrt n' * Nat.sqrt n' = n' then 0 else 1 := by
  rcases (Nat.sqrt_le_sqrt le).lt_or_eq with less | same
  · split_ifs <;> omega
  · have below := Nat.sqrt_le n
    rw [same] at below ⊢
    split_ifs <;> omega

end Root

namespace Binary64

/-- The magnitude of a number, counted in ranks; not-a-number has none. -/
def magnitude? : Binary64 → Option Nat
  | nan => none
  | infinite _ => some finiteRanks
  | finite _ rank => some rank

/-- One magnitude is at most the other, as far as there are both. -/
def Within (x x' : Binary64) : Prop :=
  ∀ a a', x.magnitude? = some a → x'.magnitude? = some a' → a ≤ a'

section Within

variable {x x' y y' : Binary64} {n n' rank rank' d : Nat} {s s' : Bool}

theorem Within.refl (x : Binary64) : x.Within x := by
  intro a a' ofX ofX'
  rw [ofX] at ofX'
  cases ofX'
  exact Nat.le_refl a

@[simp] theorem within_nan (x : Binary64) : x.Within nan :=
  nofun

@[simp] theorem nan_within (x : Binary64) : nan.Within x :=
  nofun

theorem magnitude?_le {a : Nat} (ofX : x.magnitude? = some a) : a ≤ finiteRanks := by
  cases x with
  | nan => cases ofX
  | infinite =>
    cases ofX
    exact Nat.le_refl _
  | finite s rank =>
    cases ofX
    exact rank.isLt.le

@[simp] theorem within_infinite (x : Binary64) (s : Bool) : x.Within (infinite s) := by
  rintro a _ ofX ⟨⟩
  exact magnitude?_le ofX

theorem zero_within (isZero : x.isZero) (x' : Binary64) : x.Within x' := by
  intro a a' ofX _
  cases x with
  | nan | infinite => cases isZero
  | finite s rank =>
    cases ofX
    rw [of_decide_eq_true isZero]
    exact Nat.zero_le a'

theorem not_infinite_within_finite (rank : Fin finiteRanks) :
    ¬ (infinite s).Within (finite s' rank) := fun within =>
  Nat.not_le.mpr rank.isLt (within _ _ rfl rfl)

theorem magnitude?_ofRank (s : Bool) (rank : Nat) :
    (ofRank s rank).magnitude? = some (min rank finiteRanks) := by
  unfold ofRank
  split
  case isTrue bound => rw [magnitude?, Nat.min_eq_left bound.le]
  case isFalse beyond => rw [magnitude?, Nat.min_eq_right (Nat.not_lt.mp beyond)]

theorem ofRank_within (le : rank ≤ rank') : (ofRank s rank).Within (ofRank s' rank') := by
  intro a a' ofRank ofRank'
  rw [magnitude?_ofRank] at ofRank ofRank'
  cases ofRank
  cases ofRank'
  omega

theorem ofQuotient_within (le : n ≤ n') : (ofQuotient s n d).Within (ofQuotient s' n' d) :=
  ofRank_within (nearestRank_mono le)

theorem mul_nan (x : Binary64) : x * nan = nan := by
  cases x <;> rfl

/-- Where a result is infinite unless it is no number, nothing exceeds it. -/
theorem within_unless_nan (x : Binary64) (undefined : Prop) [Decidable undefined] (s : Bool) :
    x.Within (if undefined then nan else infinite s) := by
  split
  · exact within_nan x
  · exact within_infinite x s

end Within

namespace Within

variable {x x' y y' : Binary64}

theorem mul (left : x.Within x') (right : y.Within y') : (x * y).Within (x' * y') := by
  change (Binary64.mul x y).Within (Binary64.mul x' y')
  cases x' with
  | nan => exact within_nan _
  | infinite s' =>
    cases y' with
    | nan => exact within_nan _
    | infinite t' => exact within_infinite _ _
    | finite t' b' => exact within_unless_nan _ _ _
  | finite s' a' =>
    cases y' with
    | nan => exact within_nan _
    | infinite t' => exact within_unless_nan _ _ _
    | finite t' b' =>
      cases x with
      | nan => exact nan_within _
      | infinite s => exact absurd left (not_infinite_within_finite a')
      | finite s a =>
        cases y with
        | nan => exact nan_within _
        | infinite t => exact absurd right (not_infinite_within_finite b')
        | finite t b =>
          exact ofQuotient_within (Nat.mul_le_mul (unitsOfRank_mono (left _ _ rfl rfl))
            (unitsOfRank_mono (right _ _ rfl rfl)))

/-- Division by zero is undefined for zero only, division by infinity for infinity only. -/
theorem div_right (within : x.Within x') (k : Binary64) : (x / k).Within (x' / k) := by
  change (Binary64.div x k).Within (Binary64.div x' k)
  cases k with
  | nan => cases x <;> exact nan_within _
  | infinite t =>
    cases x' with
    | nan | infinite => exact within_nan _
    | finite s' a' =>
      cases x with
      | nan => exact nan_within _
      | infinite => exact absurd within (not_infinite_within_finite a')
      | finite s a => exact ofRank_within (Nat.le_refl 0)
  | finite t b =>
    cases x' with
    | nan => exact within_nan _
    | infinite => exact within_infinite _ _
    | finite s' a' =>
      cases x with
      | nan => exact nan_within _
      | infinite => exact absurd within (not_infinite_within_finite a')
      | finite s a =>
        by_cases nonzero : b.val ≠ 0
        · rw [Binary64.div, Binary64.div, if_pos nonzero, if_pos nonzero, Nat.shiftLeft_eq,
            Nat.shiftLeft_eq]
          exact ofQuotient_within (Nat.mul_le_mul_right _ (unitsOfRank_mono (within _ _ rfl rfl)))
        · rw [Binary64.div.eq_def (finite s' a')]
          dsimp only
          rw [if_neg nonzero]
          exact within_unless_nan _ _ _

/-- Without minus signs nothing cancels. -/
theorem add (left : x.Within x') (right : y.Within y') (clear : x.SignClear) (clear' : x'.SignClear)
    (other : y.SignClear) (other' : y'.SignClear) : (x + y).Within (x' + y') := by
  change (Binary64.add x y).Within (Binary64.add x' y')
  cases x' with
  | nan => exact within_nan _
  | infinite s' =>
    obtain rfl : s' = false := clear'
    cases y' with
    | nan => exact within_nan _
    | infinite t' =>
      obtain rfl : t' = false := other'
      exact within_infinite _ _
    | finite => exact within_infinite _ _
  | finite s' a' =>
    obtain rfl : s' = false := clear'
    cases y' with
    | nan => exact within_nan _
    | infinite => exact within_infinite _ _
    | finite t' b' =>
      obtain rfl : t' = false := other'
      cases x with
      | nan => exact nan_within _
      | infinite => exact absurd left (not_infinite_within_finite a')
      | finite s a =>
        obtain rfl : s = false := clear
        cases y with
        | nan => exact nan_within _
        | infinite => exact absurd right (not_infinite_within_finite b')
        | finite t b =>
          obtain rfl : t = false := other
          exact ofQuotient_within (Nat.add_le_add (unitsOfRank_mono (left _ _ rfl rfl))
            (unitsOfRank_mono (right _ _ rfl rfl)))

theorem sqrt (within : x.Within x') (clear' : x'.SignClear) : x.sqrt.Within x'.sqrt := by
  cases x' with
  | nan => exact within_nan _
  | infinite s' =>
    obtain rfl : s' = false := clear'
    exact within_infinite _ _
  | finite s' a' =>
    obtain rfl : s' = false := clear'
    cases x with
    | nan => exact nan_within _
    | infinite => exact absurd within (not_infinite_within_finite a')
    | finite s a =>
      by_cases isZero : a.val = 0
      · rw [Binary64.sqrt, if_pos isZero]
        exact zero_within (x := finite s a) (decide_eq_true isZero) _
      · have le : a.val ≤ a'.val := within _ _ rfl rfl
        have isPositive' : ¬ a'.val = 0 := by omega
        cases s with
        | true =>
          rw [Binary64.sqrt, if_neg isZero]
          exact nan_within _
        | false =>
          simp only [Binary64.sqrt, if_neg isZero, if_neg isPositive', Bool.false_eq_true, if_false,
            wholeRoot_eq_sqrt (lt_four_pow _)]
          refine ofQuotient_within (twice_sqrt_mono ?_)
          rw [Nat.shiftLeft_eq, Nat.shiftLeft_eq]
          exact Nat.mul_le_mul_right _ (unitsOfRank_mono le)

theorem isZero_or_nan (within : x.Within x') (isZero : x'.isZero = true) :
    x.isZero = true ∨ x = nan := by
  cases x' with
  | nan | infinite => cases isZero
  | finite s' a' =>
    cases x with
    | nan => exact .inr rfl
    | infinite => exact absurd within (not_infinite_within_finite a')
    | finite s a =>
      have le : a.val ≤ a'.val := within _ _ rfl rfl
      have isZero : a'.val = 0 := of_decide_eq_true isZero
      exact .inl (decide_eq_true (by omega))

/-- Skipping an operation at zero only makes its result smaller. -/
theorem unless_zero {f : Binary64 → Binary64} (undefined : f nan = nan)
    (grows : ∀ x x', Within x x' → (f x).Within (f x')) (within : x.Within x') :
    (if x.isZero then zero else f x).Within (if x'.isZero then zero else f x') := by
  by_cases isZero : x.isZero = true
  · rw [if_pos isZero]
    exact zero_within rfl _
  · rw [if_neg isZero]
    by_cases isZero' : x'.isZero = true
    · obtain rfl := (within.isZero_or_nan isZero').resolve_left isZero
      rw [undefined]
      exact nan_within _
    · rw [if_neg isZero']
      exact grows x x' within

end Within

namespace SignClear

variable {x y : Binary64}

theorem place?_eq (clear : x.SignClear) : x.place? = x.magnitude?.map Int.ofNat := by
  cases x with
  | nan => rfl
  | infinite s | finite s =>
    obtain rfl : s = false := clear
    rfl

/-- Without minus signs, magnitudes compare as the numbers do. -/
theorem within_of_atMost (clear : x.SignClear) (clear' : y.SignClear) (le : x.atMost y = true) :
    x.Within y := by
  intro a b ofX ofY
  rw [atMost, compareBy, clear.place?_eq, clear'.place?_eq, ofX, ofY] at le
  exact Int.ofNat_le.mp (of_decide_eq_true le)

theorem atMost_of_within (clear : x.SignClear) (clear' : y.SignClear) (within : x.Within y)
    (defined : x.isNan = false) (defined' : y.isNan = false) : x.atMost y = true := by
  have measured : ∀ z : Binary64, z.isNan = false → ∃ a, z.magnitude? = some a := by
    intro z defined
    cases z with
    | nan => cases defined
    | infinite | finite => exact ⟨_, rfl⟩
  obtain ⟨a, ofX⟩ := measured x defined
  obtain ⟨b, ofY⟩ := measured y defined'
  rw [atMost, compareBy, clear.place?_eq, clear'.place?_eq, ofX, ofY]
  exact decide_eq_true (Int.ofNat_le.mpr (within a b ofX ofY))

end SignClear

section Difference

variable {x y : Binary64}

/-- Negative numbers have a minus sign and are not zero. -/
theorem less_zero_iff : x.less zero = true ↔ x.isNegative = true ∧ x.isZero = false := by
  cases x with
  | nan => decide
  | infinite s => cases s <;> decide
  | finite s a =>
    have zeroPlace : zero.place? = some 0 := rfl
    rw [less, compareBy, zeroPlace]
    cases s <;> simp [place?, signed, isNegative, isZero, Nat.pos_iff_ne_zero]

theorem nearestRank_pos {n : Nat} (nonzero : n ≠ 0) : nearestRank n 1 ≠ 0 := by
  have least : nearestRank 1 1 = 1 := by decide +kernel
  have mono : nearestRank 1 1 ≤ nearestRank n 1 := nearestRank_mono (Nat.pos_of_ne_zero nonzero)
  omega

theorem unitsOfRank_pos {rank : Nat} (nonzero : rank ≠ 0) : unitsOfRank rank ≠ 0 := by
  have least : unitsOfRank 1 = 1 := by decide
  have mono : unitsOfRank 1 ≤ unitsOfRank rank := unitsOfRank_mono (Nat.pos_of_ne_zero nonzero)
  omega

theorem isZero_ofRank {s : Bool} {rank : Nat} (nonzero : rank ≠ 0) :
    (ofRank s rank).isZero = false := by
  unfold ofRank
  split
  · exact decide_eq_false nonzero
  · rfl

/-- Below zero, nothing that is taken away leads up. -/
theorem sub_less_zero (negative : x.less zero = true) (clear : y.SignClear)
    (defined : y ≠ nan) : (x - y).less zero = true := by
  rw [less_zero_iff] at negative ⊢
  obtain ⟨minus, nonzero⟩ := negative
  change (add x (neg y)).isNegative = true ∧ (add x (neg y)).isZero = false
  cases y with
  | nan => exact absurd rfl defined
  | infinite t =>
    obtain rfl : t = false := clear
    cases x with
    | nan => cases minus
    | infinite s =>
      obtain rfl : s = true := minus
      exact ⟨rfl, rfl⟩
    | finite => exact ⟨rfl, rfl⟩
  | finite t b =>
    obtain rfl : t = false := clear
    cases x with
    | nan => cases minus
    | infinite s => exact ⟨minus, rfl⟩
    | finite s a =>
      obtain rfl : s = true := minus
      have magnitude : unitsOfRank a ≠ 0 := unitsOfRank_pos (of_decide_eq_false nonzero)
      have sum : units true a + units true b < 0 := by
        simp only [units, signed, if_true]
        omega
      have rank := nearestRank_pos (Int.natAbs_ne_zero.mpr sum.ne)
      simp only [add, neg, Bool.not_false, ofUnits, if_neg sum.ne, decide_eq_true sum]
      exact ⟨isNegative_ofQuotient .., isZero_ofRank rank⟩

end Difference

end Binary64
end Uncertainty
