import Uncertainty.Binary64.Rounding
import Uncertainty.Text.Blank
import Uncertainty.Text.DecimalDigit

/-!
The numerals that denote doubles: an optional sign, digits with an optional point and an optional
exponent, or one of the words for infinity and not-a-number; underscores may separate digits, blanks
may surround all, and digits of any script count. The value is the exact decimal, rounded once.
-/
namespace Uncertainty.Binary64

/-- The double nearest to `coefficient * 10 ^ exponent`. Decimals that are certainly past either
end of the range are not written out. -/
def ofDecimal (negative : Bool) (coefficient : Nat) (exponent : Int) : Binary64 :=
  if coefficient = 0 then ofRank negative 0
  else if 310 < exponent then infinite negative
  else if exponent + coefficient.log2 < -330 then ofRank negative 0
  else if exponent < 0 then
    ofQuotient negative (coefficient <<< 1074) (Nat.pow 10 exponent.natAbs)
  else
    ofQuotient negative ((coefficient * Nat.pow 10 exponent.natAbs) <<< 1074) 1

namespace Numeral

/-- A text with any character past the seven-bit range is first respelled within it. -/
def respell (characters : List Char) : Option (List Char) :=
  if characters.all (·.toNat < 128) then some characters
  else characters.mapM fun c =>
    if c.toNat < 127 then some c
    else if Text.isWideBlank c then some ' '
    else (Text.digitValue? c).map fun value => Char.ofNat (48 + value)

def trim (characters : List Char) : List Char :=
  ((characters.dropWhile Text.isNarrowBlank).reverse.dropWhile Text.isNarrowBlank).reverse

/-- Drops underscores, each of which must stand between two digits. -/
def dropSeparators (afterDigit : Bool) : List Char → Option (List Char)
  | [] => some []
  | ['_'] => none
  | '_' :: c :: rest =>
    if afterDigit && c.isDigit then (dropSeparators true rest).map (c :: ·) else none
  | c :: rest => (dropSeparators c.isDigit rest).map (c :: ·)

def takeSign : List Char → Bool × List Char
  | '-' :: rest => (true, rest)
  | '+' :: rest => (false, rest)
  | rest => (false, rest)

def value (digits : List Char) : Nat :=
  digits.foldl (fun n c => 10 * n + (c.toNat - 48)) 0

def exponent? : List Char → Option Int
  | [] => some 0
  | mark :: rest =>
    let (negative, digits) := takeSign rest
    if (mark = 'e' || mark = 'E') && !digits.isEmpty && digits.all Char.isDigit then
      some (signed negative (value digits))
    else none

def magnitude? (negative : Bool) (characters : List Char) : Option Binary64 :=
  let word := characters.map Char.toLower
  if word = "nan".toList then some nan
  else if word = "inf".toList || word = "infinity".toList then some (infinite negative)
  else
    let integral := characters.takeWhile Char.isDigit
    let afterIntegral := characters.dropWhile Char.isDigit
    let (fractional, afterFractional) := match afterIntegral with
      | '.' :: rest => (rest.takeWhile Char.isDigit, rest.dropWhile Char.isDigit)
      | rest => ([], rest)
    if integral.isEmpty && fractional.isEmpty then none
    else (exponent? afterFractional).map fun exponent =>
      ofDecimal negative (value (integral ++ fractional)) (exponent - fractional.length)

end Numeral

def ofText? (text : String) : Option Binary64 := do
  let characters ← Numeral.respell text.toList
  let characters ← Numeral.dropSeparators false (Numeral.trim characters)
  let (negative, magnitude) := Numeral.takeSign characters
  Numeral.magnitude? negative magnitude

end Uncertainty.Binary64
