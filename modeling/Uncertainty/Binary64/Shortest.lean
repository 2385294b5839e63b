import Uncertainty.Binary64.Rounding

/-!
The decimal text of a double: the fewest significant digits that read back to it, of two such
decimals the nearer one and at a tie the even one.
-/
namespace Uncertainty

structure Decimal where
  coefficient : Nat
  exponent : Int
deriving DecidableEq

namespace Decimal

def rank (d : Decimal) : Nat :=
  if d.exponent < 0 then
    Binary64.nearestRank (d.coefficient <<< 1074) (Nat.pow 10 d.exponent.natAbs)
  else
    Binary64.nearestRank ((d.coefficient * Nat.pow 10 d.exponent.natAbs) <<< 1074) 1

def digits (d : Decimal) : List Char :=
  ((Nat.toDigits 10 d.coefficient).reverse.dropWhile (· = '0')).reverse

def leadingExponent (d : Decimal) : Int :=
  d.exponent + (Nat.toDigits 10 d.coefficient).length - 1

end Decimal

namespace Binary64

/-- The exponent of the first digit of a positive number of least units: a lower estimate from the
count of binary digits, at most two too small. -/
def firstDigitExponent (units : Nat) : Int :=
  let estimate := ((units.log2 : Int) - 1074) * 30103 / 100000 - 1
  let reaches (exponent : Int) : Bool :=
    Binary64.unitsOfOne * Nat.pow 10 exponent.toNat ≤ units * Nat.pow 10 (-exponent).toNat
  if reaches (estimate + 2) then estimate + 2
  else if reaches (estimate + 1) then estimate + 1
  else estimate

/-- The decimal with the given exponent that reads back to a rank: the nearer of the two neighbours
of the exact value, or else the other one. -/
def onGrid? (rank : Nat) (exponent : Int) : Option Decimal :=
  let numerator := unitsOfRank rank * Nat.pow 10 (-exponent).toNat
  let denominator := unitsOfOne * Nat.pow 10 exponent.toNat
  let below := numerator / denominator
  let nearer := roundHalfEven numerator denominator
  let farther := if nearer = below then below + 1 else below
  [nearer, farther].findSome? fun coefficient =>
    if (Decimal.mk coefficient exponent).rank = rank then some ⟨coefficient, exponent⟩ else none

def exactDecimal (rank : Nat) : Decimal :=
  ⟨unitsOfRank rank * Nat.pow 5 1074, -1074⟩

/-- The shortest decimal of a positive rank; seventeen digits always suffice. -/
def shortest (rank : Nat) : Decimal :=
  let first := firstDigitExponent (unitsOfRank rank)
  let hit? := (List.range 17).findSome? fun (further : Nat) => onGrid? rank (first - further)
  hit?.getD (exactDecimal rank)

/-- Exponents of the first digit from -4 to 15 are written positionally. -/
def layOut (digits : List Char) (leading : Int) : List Char :=
  if -4 ≤ leading ∧ leading < 0 then
    '0' :: '.' :: (List.replicate (-leading - 1).toNat '0' ++ digits)
  else if 0 ≤ leading ∧ leading ≤ 15 then
    let width := leading.toNat + 1
    let fraction := digits.drop width
    (digits.take width).rightpad width '0' ++ '.' :: (if fraction.isEmpty then ['0'] else fraction)
  else
    let power := (Nat.toDigits 10 leading.natAbs).leftpad 2 '0'
    let rest := digits.drop 1
    digits.take 1 ++ (if rest.isEmpty then [] else '.' :: rest)
      ++ 'e' :: (if leading < 0 then '-' else '+') :: power

def toText : Binary64 → String
  | nan => "nan"
  | infinite negative => if negative then "-inf" else "inf"
  | finite negative rank =>
    let magnitude :=
      if rank.val = 0 then ['0', '.', '0']
      else
        let decimal := shortest rank
        layOut decimal.digits decimal.leadingExponent
    String.ofList (if negative then '-' :: magnitude else magnitude)

instance : ToString Binary64 := ⟨toText⟩

end Binary64
end Uncertainty
