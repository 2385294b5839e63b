import Uncertainty.Binary64.Rounding

/-!
Sum, difference, product, quotient and square root: the exact result on finite operands, rounded
once, and the usual table for infinities, zeros and not-a-number.
-/
namespace Uncertainty

/-- The whole part of a square root, two binary digits of `n` at a time, `2 * pairs` in all. -/
def wholeRoot (pairs n : Nat) : Nat :=
  match pairs with
  | 0 => 0
  | pairs + 1 =>
    let root := 2 * wholeRoot pairs (n / 4)
    if (root + 1) * (root + 1) ≤ n then root + 1 else root

namespace Binary64

def add : Binary64 → Binary64 → Binary64
  | nan, _ | _, nan => nan
  | infinite s, infinite t => if s = t then infinite s else nan
  | infinite s, finite _ _ | finite _ _, infinite s => infinite s
  | finite s a, finite t b => ofUnits (s && t) (units s a + units t b)

def sub (x y : Binary64) : Binary64 :=
  add x (neg y)

def mul : Binary64 → Binary64 → Binary64
  | nan, _ | _, nan => nan
  | infinite s, infinite t => infinite (s != t)
  | infinite s, finite t b | finite t b, infinite s => if b.val = 0 then nan else infinite (s != t)
  | finite s a, finite t b => ofQuotient (s != t) (unitsOfRank a * unitsOfRank b) unitsOfOne

def div : Binary64 → Binary64 → Binary64
  | nan, _ | _, nan => nan
  | infinite _, infinite _ => nan
  | infinite s, finite t _ => infinite (s != t)
  | finite s _, infinite t => ofRank (s != t) 0
  | finite s a, finite t b =>
    if b.val ≠ 0 then ofQuotient (s != t) (unitsOfRank a <<< 1074) (unitsOfRank b)
    else if a.val = 0 then nan
    else infinite (s != t)

/-- The root of `u` least units is the root of `u * 2 ^ 1074` in least units, far more than 53
binary digits, so its whole part and whether anything is left decide the rounding. -/
def sqrt : Binary64 → Binary64
  | nan => nan
  | infinite s => if s then nan else infinite s
  | finite s a =>
    if a.val = 0 then finite s a
    else if s then nan
    else
      let square := unitsOfRank a <<< 1074
      let root := wholeRoot (square.log2 / 2 + 1) square
      ofQuotient false (2 * root + if root * root = square then 0 else 1) 2

instance : Add Binary64 := ⟨add⟩
instance : Sub Binary64 := ⟨sub⟩
instance : Mul Binary64 := ⟨mul⟩
instance : Div Binary64 := ⟨div⟩

end Binary64
end Uncertainty
