import Uncertainty.Token

/-!
The binary operators and how tightly each binds. An operator binds its left operand with one power
and its right operand with another; the larger of the two is on the side that it does not
associate to.
-/
namespace Uncertainty

inductive Operator where
  | add
  | sub
  | mul
  | div
  | pow
  | plusMinus
deriving DecidableEq

namespace Operator

def ofSymbol? : Symbol → Option Operator
  | .plus => some add
  | .minus => some sub
  | .star => some mul
  | .slash => some div
  | .caret => some pow
  | .plusMinus => some plusMinus
  | _ => none

def ofLexeme? : Lexeme → Option Operator
  | .symbol symbol => ofSymbol? symbol
  | .number _ | .data .. => none

def leftPower : Operator → Nat
  | add | sub => 1
  | mul | div => 3
  | pow => 6
  | plusMinus => 7

def rightPower : Operator → Nat
  | add | sub => 2
  | mul | div => 4
  | pow => 5
  | plusMinus => 8

/-- The power with which a sign in front binds its operand, more than any operator between two. -/
def negationPower : Nat := 9

end Operator
end Uncertainty
