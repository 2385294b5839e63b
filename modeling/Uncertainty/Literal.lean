/-!
Decimal literals as they are written: the digits on both sides of the point, kept apart from the
number that they denote, so that no significant figure is lost.
-/
namespace Uncertainty

structure Literal where
  integral : String
  fractional : String
deriving DecidableEq

namespace Literal

/-- Cuts a text at its first point. A literal that starts with the point has the integral part 0. -/
def ofText (text : String) : Literal :=
  let before := text.toList.takeWhile (· ≠ '.')
  match text.toList.dropWhile (· ≠ '.') with
  | [] => ⟨text, ""⟩
  | _ :: after => ⟨if before.isEmpty then "0" else String.ofList before, String.ofList after⟩

def toText (literal : Literal) : String :=
  if literal.fractional.isEmpty then literal.integral
  else literal.integral ++ "." ++ literal.fractional

/-- Zeros in front never count; zeros at the end of an integral part count only before a point. -/
def significantFigures (literal : Literal) : Nat :=
  let leading := literal.integral.toList.dropWhile (· = '0')
  let fractional := literal.fractional.toList
  if fractional.isEmpty then (leading.reverse.dropWhile (· = '0')).length
  else if leading.isEmpty then (fractional.dropWhile (· = '0')).length
  else leading.length + fractional.length

end Literal
end Uncertainty
