import Uncertainty.Measurement

/-!
Arithmetic between a measurement and an operand of another kind on either side: a double, an
integer, which first becomes the nearest double, or a text, which is refused.
-/
namespace Uncertainty

inductive Operand where
  | measurement (m : Measurement)
  | real (x : Binary64)
  | integer (n : Int)
  | text (s : String)

inductive OperandError where
  | unsupported (sign left right : String)
  | notConcatenable (right : String)
  | notRepeatable (count : String)
  | tooLarge
deriving DecidableEq

namespace OperandError

def message : OperandError → String
  | unsupported sign left right =>
    s!"unsupported operand type(s) for {sign}: '{left}' and '{right}'"
  | notConcatenable right => s!"can only concatenate str (not \"{right}\") to str"
  | notRepeatable count => s!"can't multiply sequence by non-int of type '{count}'"
  | tooLarge => "int too large to convert to float"

end OperandError

namespace Operand

def kind : Operand → String
  | measurement _ => "Measurement"
  | real _ => "float"
  | integer _ => "int"
  | text _ => "str"

/-- The number of a plain operand; `refusal` is the answer to an operand that has none. -/
def number (refusal : OperandError) : Operand → Except OperandError Binary64
  | real x => .ok x
  | integer n => (Binary64.ofInt? n).elim (.error .tooLarge) .ok
  | measurement _ | text _ => .error refusal

def combine (refusal : Operand → Operand → OperandError)
    (both : Measurement → Measurement → Measurement)
    (onLeft : Measurement → Binary64 → Measurement)
    (onRight : Binary64 → Measurement → Measurement) (x y : Operand) :
    Except OperandError Measurement :=
  match x, y with
  | measurement a, measurement b => .ok (both a b)
  | measurement a, b => (b.number (refusal x y)).map (onLeft a)
  | a, measurement b => (a.number (refusal x y)).map (onRight · b)
  | _, _ => .error (refusal x y)

def refuse (sign : String) (x y : Operand) : OperandError :=
  .unsupported sign x.kind y.kind

def add : Operand → Operand → Except OperandError Measurement :=
  combine
    (fun x y => match x with
      | text _ => .notConcatenable y.kind
      | _ => refuse "+" x y)
    Measurement.add Measurement.addNumber fun k m => m.addNumber k

def sub : Operand → Operand → Except OperandError Measurement :=
  combine (refuse "-") Measurement.sub Measurement.subNumber Measurement.numberSub

/-- Refused by the rule for repeating a text. -/
def mul : Operand → Operand → Except OperandError Measurement :=
  combine
    (fun x y => match x with
      | text _ => .notRepeatable y.kind
      | _ => .notRepeatable x.kind)
    Measurement.mul Measurement.mulNumber fun k m => m.mulNumber k

def div : Operand → Operand → Except OperandError Measurement :=
  combine (refuse "/") Measurement.div Measurement.divNumber fun k m => (Measurement.exact k).div m

def pow : Operand → Operand → Except OperandError Measurement :=
  combine (refuse "** or pow()") Measurement.pow (fun m k => m.pow (.exact k))
    fun k m => (Measurement.exact k).pow m

/-- Only measurements are equal, and those by their numbers. -/
def equals : Operand → Operand → Bool
  | measurement x, measurement y => x.equals y
  | _, _ => false

def exact (x : Operand) : Except OperandError Measurement :=
  (x.number (.unsupported "float" x.kind x.kind)).map .exact

end Operand
end Uncertainty
