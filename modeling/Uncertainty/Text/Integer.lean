import Uncertainty.Binary64.Numeral
import Uncertainty.Text.Quoted

/-!
Integers as texts write them in some base: an optional sign and digits, with blanks around them and
perhaps the letter of the base in front. Decimals are read up to a certain length only.
-/
namespace Uncertainty

inductive IntegerError where
  | notNumeral (base : Nat) (text : Text)
  | tooLong (digits : Nat)
deriving DecidableEq

/-- At most the first 200 characters of a text that is no numeral are shown. -/
def IntegerError.message : IntegerError → String
  | notNumeral base text =>
    s!"invalid literal for int() with base {base}: " ++
      String.ofList ((Text.quoted text).toList.take 200)
  | tooLong digits =>
    "Exceeds the limit (4300 digits) for integer string conversion: " ++
      s!"value has {digits} digits; use sys.set_int_max_str_digits() to increase the limit"

namespace Text

def hexValue? (c : Char) : Option Nat :=
  if c.isDigit then some (c.toNat - 48)
  else if 'a' ≤ c ∧ c ≤ 'f' then some (c.toNat - 87)
  else if 'A' ≤ c ∧ c ≤ 'F' then some (c.toNat - 55)
  else none

def hexNumber? (digits : List Char) : Option Nat :=
  digits.foldlM (fun n c => (hexValue? c).map (16 * n + ·)) 0

def isDigitIn (base : Nat) (c : Char) : Bool :=
  (hexValue? c).any (· < base)

def numberIn (base : Nat) (digits : List Char) : Nat :=
  digits.foldl (fun n c => base * n + (hexValue? c).getD 0) 0

def baseLetters (base : Nat) : List Char :=
  if base = 2 then ['b', 'B'] else if base = 8 then ['o', 'O'] else if base = 16 then ['x', 'X']
  else []

def dropBase (base : Nat) : List Char → List Char
  | '0' :: letter :: digits =>
    if (baseLetters base).contains letter then digits else '0' :: letter :: digits
  | digits => digits

/-- Decimals of more digits than this are not read. -/
abbrev mostDigits : Nat := 4300

def integer (base : Nat) (characters : List Char) : Except IntegerError Int :=
  let respelled := do
    Binary64.Numeral.dropSeparators false
      (Binary64.Numeral.trim (← Binary64.Numeral.respell characters))
  let (negative, unsigned) := Binary64.Numeral.takeSign (respelled.getD [])
  let digits := dropBase base unsigned
  let run := digits.takeWhile (isDigitIn base)
  if base = 10 && mostDigits < run.length then .error (.tooLong run.length)
  else if run.isEmpty || run.length < digits.length then
    .error (.notNumeral base (String.ofList characters))
  else .ok (Binary64.signed negative (numberIn base run))

end Text
end Uncertainty
