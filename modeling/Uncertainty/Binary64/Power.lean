import Uncertainty.Binary64.Arithmetic
import Uncertainty.Binary64.Enclosure

/-!
The natural logarithm and the power, both the exact real value rounded once. An enclosure of the
value is made narrower until both of its ends round to one rank. Only a value halfway between two
doubles would never get there; the logarithm has none, and the powers that could be are computed
exactly.

The C library that a platform takes these functions from need not round them correctly, so the last
digit there can be another: `5.4 ^ 0.8` is 3.854029263008983 here and 3.8540292630089836 in such a
library.
-/
namespace Uncertainty.Binary64

def precisions : List Nat :=
  [128, 256, 512, 1024, 2048]

def agreedRank (precision : Nat) (exponent : Int) (factor : Enclosure) : Option Nat :=
  let shift := exponent - precision + 1074
  let rank (n : Nat) := nearestRank (n <<< shift.toNat) (1 <<< (-shift).toNat)
  if rank factor.low = rank factor.high then some (rank factor.low) else none

def log : Binary64 → Binary64
  | nan => nan
  | infinite negative => if negative then nan else infinity
  | finite negative rank =>
    let units := unitsOfRank rank
    if rank.val = 0 then infinite true
    else if negative then nan
    else if units = unitsOfOne then zero
    else
      let value := precisions.findSome? fun precision =>
        agreedRank precision 0 (Enclosure.logarithm precision units)
      ofRank (units < unitsOfOne) (value.getD 0)

def isInteger : Binary64 → Bool
  | finite _ rank => unitsOfRank rank % unitsOfOne = 0
  | _ => false

def isOdd (x : Binary64) : Bool :=
  match x with
  | finite _ rank => x.isInteger && (unitsOfRank rank >>> 1074) % 2 = 1
  | _ => false

def halvings (n : Nat) : Nat :=
  (n ^^^ (n - 1)).log2

/-- The rank of `odd ^ exponent * 2 ^ (twos * exponent)` for a whole exponent, if the value is
dyadic and short. Values certainly out of range are not written out. -/
def wholePower? (odd : Nat) (twos : Int) (inverted : Bool) (exponent : Nat) : Option Nat :=
  let scale := twos * signed inverted exponent
  if odd = 1 && 1100 < scale then some finiteRanks
  else if odd = 1 && scale < -1200 then some 0
  else if odd = 1 || (!inverted && exponent ≤ 64) then
    let shift := scale + 1074
    some (nearestRank (Nat.pow odd (if odd = 1 then 0 else exponent) <<< shift.toNat)
      (1 <<< (-shift).toNat))
  else none

/-- The rank of a dyadic power. An exponent `numerator / 2 ^ roots` takes as many square roots of
the base, each of which must come out even. -/
def dyadicPower? (odd : Nat) (twos : Int) (inverted : Bool) (numerator : Nat) : Nat → Option Nat
  | 0 => wholePower? odd twos inverted numerator
  | roots + 1 =>
    let root := wholeRoot (odd.log2 / 2 + 1) odd
    if root * root = odd && twos % 2 = 0 then
      dyadicPower? root (twos / 2) inverted numerator roots
    else none

/-- The rank of a power from enclosures of the logarithm of the base, which gets as many further
digits as the exponent has before the point. -/
def enclosedPower? (base exponent : Nat) (inverted : Bool) (precision : Nat) : Option Nat :=
  let extra := exponent.log2 + 12 - 1074
  let logarithm := Enclosure.logarithm (precision + extra) base
  let shift := extra + 1074
  let z : Enclosure :=
    ⟨(exponent * logarithm.low) >>> shift, ((exponent * logarithm.high) >>> shift) + 1⟩
  if 800 <<< precision < z.low then some (if inverted then 0 else finiteRanks)
  else
    let (power, factor) := Enclosure.exponential precision inverted z
    agreedRank precision power factor

def powerRank (base : Nat) (negative : Bool) (exponent : Nat) : Nat :=
  let baseTwos := halvings base
  let exponentTwos := halvings exponent
  let odd := base >>> baseTwos
  let twos : Int := baseTwos - 1074
  let exact :=
    dyadicPower? odd twos negative ((exponent >>> exponentTwos) <<< (exponentTwos - 1074))
      (1074 - exponentTwos)
  let inverted := negative != (base < unitsOfOne)
  (exact <|> precisions.findSome? (enclosedPower? base exponent inverted)).getD 0

/-- The power. Zero to a negative power is infinite, without a sign; a negative number has powers
with whole exponents only, unless already the magnitude is too large. -/
def pow (x y : Binary64) : Binary64 :=
  if y.isZero || x = one then one
  else
    let negative := x.isNegative && y.isOdd
    match x, y with
    | nan, _ | _, nan => nan
    | infinite _, _ => if y.isNegative then ofRank negative 0 else infinite negative
    | finite _ a, infinite below =>
      if unitsOfRank a = unitsOfOne then one
      else if below = (unitsOfRank a < unitsOfOne : Bool) then infinity
      else zero
    | finite s a, finite t b =>
      if a.val = 0 then
        if t then infinity else ofRank negative 0
      else
        let power := ofRank negative (powerRank (unitsOfRank a) t (unitsOfRank b))
        if s && !y.isInteger && !power.isInfinite then nan else power

end Uncertainty.Binary64
