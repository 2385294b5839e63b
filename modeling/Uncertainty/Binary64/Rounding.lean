import Uncertainty.Binary64.Basic

/-!
Rounding to nearest, ties to even: the exact result of an operation is a quotient of naturals in
least units, and it is rounded once, by rank. Even ranks are those with an even significand, so the
tie rule for significands is the tie rule for ranks.
-/
namespace Uncertainty

def roundHalfEven (numerator denominator : Nat) : Nat :=
  let quotient := numerator / denominator
  let twice := 2 * (numerator % denominator)
  if twice < denominator then quotient
  else if denominator < twice then quotient + 1
  else quotient + quotient % 2

namespace Binary64

/-- The rank nearest to `numerator / denominator` least units. A quotient of `53 + shift` binary
digits keeps its first 53; a carry out of them lands on the next binade by itself. -/
def nearestRank (numerator denominator : Nat) : Nat :=
  let shift := (numerator / denominator).log2 - 52
  roundHalfEven numerator (denominator <<< shift) + shift * binadeSize

def ofQuotient (negative : Bool) (numerator denominator : Nat) : Binary64 :=
  ofRank negative (nearestRank numerator denominator)

def ofUnits (zeroSign : Bool) (units : Int) : Binary64 :=
  ofQuotient (if units = 0 then zeroSign else units < 0) units.natAbs 1

def ofInt? (n : Int) : Option Binary64 :=
  match ofQuotient (n < 0) (n.natAbs <<< 1074) 1 with
  | finite negative rank => some (finite negative rank)
  | _ => none

end Binary64
end Uncertainty
