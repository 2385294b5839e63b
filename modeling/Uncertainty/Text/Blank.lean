/-!
Blank characters. Beyond the seven-bit range these are the spaces and separators of Unicode 14;
within it they are the space and the characters from tab to carriage return.
-/
namespace Uncertainty.Text

def wideBlankRanges : List (Nat × Nat) :=
  [(0x85, 0x85), (0xA0, 0xA0), (0x1680, 0x1680), (0x2000, 0x200A), (0x2028, 0x2029),
   (0x202F, 0x202F), (0x205F, 0x205F), (0x3000, 0x3000)]

def inRanges (ranges : List (Nat × Nat)) (c : Char) : Bool :=
  ranges.any fun (first, last) => first ≤ c.toNat && c.toNat ≤ last

def isWideBlank (c : Char) : Bool :=
  inRanges wideBlankRanges c

def isNarrowBlank (c : Char) : Bool :=
  c = ' ' || (9 ≤ c.toNat && c.toNat ≤ 13)

end Uncertainty.Text
