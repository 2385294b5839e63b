import Uncertainty.Text
import Uncertainty.Text.Printable

/-!
Quoting a text for a message. Single quotes enclose it unless it holds one and no double quote; a
code point that cannot be shown is written by its number.
-/
namespace Uncertainty.Text

/-- Lower-case hexadecimal digits, at least `width` of them. -/
def hex (width n : Nat) : List Char :=
  (Nat.toDigits 16 n).leftpad width '0'

def quotedCharacter (quote c : Char) : List Char :=
  if c = quote || c = '\\' then ['\\', c]
  else if c = '\n' then ['\\', 'n']
  else if c = '\r' then ['\\', 'r']
  else if c = '\t' then ['\\', 't']
  else if isPrintable c then [c]
  else if c.toNat < 0x100 then '\\' :: 'x' :: hex 2 c.toNat
  else if c.toNat < 0x10000 then '\\' :: 'u' :: hex 4 c.toNat
  else '\\' :: 'U' :: hex 8 c.toNat

def quotedPoint (quote : Char) : CodePoint → List Char
  | .character c => quotedCharacter quote c
  | .half offset => '\\' :: 'u' :: hex 4 (CodePoint.half offset).number

def quoted (text : Text) : String :=
  let holds (c : Char) := text.points.contains (.character c)
  let quote := if holds '\'' && !holds '"' then '"' else '\''
  String.ofList (quote :: text.points.flatMap (quotedPoint quote) ++ [quote])

end Uncertainty.Text
