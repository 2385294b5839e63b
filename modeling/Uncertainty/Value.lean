import Uncertainty.Measurement

/-!
The values of expressions and the operations on them. A plain number is known to be non-negative by
construction, or it may have any sign; only the former can be an uncertainty. One measurement among
the operands makes the result a measurement.
-/
namespace Uncertainty

inductive Value where
  | positive (x : Binary64)
  | number (x : Binary64)
  | measurement (m : Measurement)
deriving DecidableEq

namespace Value

def toText : Value → String
  | positive x | number x => x.toText
  | measurement m => m.toText

instance : ToString Value := ⟨toText⟩

def describe : Value → String
  | measurement m => s!"measurement {m}"
  | positive x | number x =>
    if x.isNan then s!"undefined number {x}"
    else if Binary64.zero.atMost x then s!"computed number {x}"
    else s!"negative number {x}"

end Value

inductive DomainError where
  | uncertainBase (base : Measurement)
  | uncertainExponent (base : Binary64) (exponent : Measurement)
  | fractionalExponent (base exponent : Binary64)
  | uncertainty (sigma : Value)
  | center (mean : Measurement)
deriving DecidableEq

namespace DomainError

def message : DomainError → String
  | uncertainBase base =>
    s!"Cannot raise {base} to a power: its lower bound {base.lowerBound} is negative"
  | uncertainExponent base exponent =>
    s!"Cannot raise negative number {base} to the uncertain power {exponent}"
  | fractionalExponent base exponent =>
    s!"Cannot raise negative number {base} to the fractional power {exponent}"
  | uncertainty sigma =>
    s!"Uncertainty after '±' must be a non-negative number, got {sigma.describe}"
  | center mean =>
    s!"Value before '±' must be a plain number, got {(Value.measurement mean).describe}"

end DomainError

namespace Value

/-- A negated number is no longer known to be non-negative. -/
def negate : Value → Value
  | measurement m => measurement m.neg
  | positive x | number x => number (-x)

def add : Value → Value → Value
  | measurement x, measurement y => measurement (x.add y)
  | measurement x, positive k | measurement x, number k => measurement (x.addNumber k)
  | positive k, measurement y | number k, measurement y => measurement (y.addNumber k)
  | positive a, positive b => positive (a + b)
  | positive a, number b | number a, positive b | number a, number b => number (a + b)

def subtract : Value → Value → Value
  | measurement x, measurement y => measurement (x.sub y)
  | measurement x, positive k | measurement x, number k => measurement (x.subNumber k)
  | positive k, measurement y | number k, measurement y => measurement (Measurement.numberSub k y)
  | positive a, positive b | positive a, number b | number a, positive b | number a, number b =>
    number (a - b)

def multiply : Value → Value → Value
  | measurement x, measurement y => measurement (x.mul y)
  | measurement x, positive k | measurement x, number k => measurement (x.mulNumber k)
  | positive k, measurement y | number k, measurement y => measurement (y.mulNumber k)
  | positive a, positive b => positive (a * b)
  | positive a, number b | number a, positive b | number a, number b => number (a * b)

def divide : Value → Value → Value
  | measurement x, measurement y => measurement (x.div y)
  | measurement x, positive k | measurement x, number k => measurement (x.divNumber k)
  | positive k, measurement y | number k, measurement y =>
    measurement ((Measurement.exact k).div y)
  | positive a, positive b => positive (a / b)
  | positive a, number b | number a, positive b | number a, number b => number (a / b)

def lift : Value → Measurement
  | measurement m => m
  | positive x | number x => .exact x

/-- The power of a plain base; the result of a negative base or of one of unknown sign has unknown
sign too. -/
def powerOf (result : Binary64 → Value) (base : Binary64) (exponent : Value) :
    Except DomainError Value :=
  if Binary64.zero.atMost base || base.isNan then
    match exponent with
    | measurement y => .ok (measurement ((Measurement.exact base).pow y))
    | positive y | number y => .ok (result (base.pow y))
  else
    match exponent with
    | measurement y => .error (.uncertainExponent base y)
    | positive y | number y =>
      if y.isInteger then .ok (number (base.pow y)) else .error (.fractionalExponent base y)

/-- Powers are refused where the base may be negative and the exponent is not a plain integer. -/
def power : Value → Value → Except DomainError Value
  | measurement x, exponent =>
    if x.lowerBound.less .zero then .error (.uncertainBase x)
    else .ok (measurement (x.pow exponent.lift))
  | positive x, exponent => powerOf positive x exponent
  | number x, exponent => powerOf number x exponent

/-- Makes a measurement from a plain number and an uncertainty that is known to be one. -/
def plusMinus (mean sigma : Value) : Except DomainError Value :=
  match sigma with
  | positive s =>
    if s.isNan then .error (.uncertainty sigma)
    else match mean with
      | measurement m => .error (.center m)
      | positive x | number x => .ok (measurement ⟨x, s⟩)
  | number _ | measurement _ => .error (.uncertainty sigma)

end Value
end Uncertainty
