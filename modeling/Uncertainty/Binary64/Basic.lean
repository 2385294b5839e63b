/-!
Double-precision numbers. The finite magnitudes are numbered in ascending order from zero; the
number of a magnitude, its rank, is also its 63-bit pattern. All finite numbers are whole multiples
of the least positive one, `2 ^ -1074`, and that multiple is the exact value used by arithmetic.
-/
namespace Uncertainty

/-- The count of finite magnitudes, 2047 binades. -/
abbrev finiteRanks : Nat := 0x7FF0000000000000

abbrev binadeSize : Nat := 0x10000000000000

inductive Binary64 where
  | nan
  | infinite (negative : Bool)
  | finite (negative : Bool) (rank : Fin finiteRanks)
deriving DecidableEq

namespace Binary64

/-- A magnitude in units of the least positive one. From the second binade on, each binade repeats
the significands of the first at twice the spacing. -/
def unitsOfRank (rank : Nat) : Nat :=
  if rank < binadeSize then rank
  else (binadeSize + rank % binadeSize) <<< (rank / binadeSize - 1)

abbrev unitsOfOne : Nat := 1 <<< 1074

/-- The magnitude of a rank; past the finite ones there is only infinity. -/
def ofRank (negative : Bool) (rank : Nat) : Binary64 :=
  if bound : rank < finiteRanks then finite negative ⟨rank, bound⟩ else infinite negative

def zero : Binary64 := finite false ⟨0, by decide⟩

def one : Binary64 := ofRank false 0x3FF0000000000000

def infinity : Binary64 := infinite false

instance : Inhabited Binary64 := ⟨zero⟩

def isNegative : Binary64 → Bool
  | nan => false
  | infinite negative | finite negative _ => negative

def isNan : Binary64 → Bool
  | nan => true
  | _ => false

def isInfinite : Binary64 → Bool
  | infinite _ => true
  | _ => false

def isZero : Binary64 → Bool
  | finite _ rank => rank.val = 0
  | _ => false

def neg : Binary64 → Binary64
  | nan => nan
  | infinite negative => infinite !negative
  | finite negative rank => finite (!negative) rank

def abs : Binary64 → Binary64
  | nan => nan
  | infinite _ => infinite false
  | finite _ rank => finite false rank

instance : Neg Binary64 := ⟨neg⟩

/-- Gives a magnitude, counted in whatever way, its sign. -/
def signed (negative : Bool) (magnitude : Nat) : Int :=
  if negative then -magnitude else magnitude

/-- The place of a number on the line. Both zeros have the place 0, not-a-number has none. -/
def place? : Binary64 → Option Int
  | nan => none
  | infinite negative => some (signed negative finiteRanks)
  | finite negative rank => some (signed negative rank)

def compareBy (holds : Int → Int → Bool) (x y : Binary64) : Bool :=
  match x.place?, y.place? with
  | some a, some b => holds a b
  | _, _ => false

def equals : Binary64 → Binary64 → Bool := compareBy fun a b => a = b
def less : Binary64 → Binary64 → Bool := compareBy fun a b => a < b
def atMost : Binary64 → Binary64 → Bool := compareBy fun a b => a ≤ b

def units (negative : Bool) (rank : Fin finiteRanks) : Int :=
  signed negative (unitsOfRank rank)

end Binary64
end Uncertainty
