import Uncertainty.Binary64.Power
import Uncertainty.Binary64.Shortest

/-!
Measurements, a mean with a standard uncertainty, and the first-order propagation of uncertainty
between independent operands. A plain number takes part without an uncertainty of its own.
-/
namespace Uncertainty

structure Measurement where
  mean : Binary64
  sigma : Binary64
deriving DecidableEq

namespace Measurement

open Binary64 (zero one)

def exact (x : Binary64) : Measurement :=
  ⟨x, zero⟩

def toText (m : Measurement) : String :=
  m.mean.toText ++ " ± " ++ m.sigma.toText

instance : ToString Measurement := ⟨toText⟩

def lowerBound (m : Measurement) : Binary64 :=
  m.mean - m.sigma

def sumOfSquares (x y : Binary64) : Binary64 :=
  x * x + y * y

def combined (x y : Binary64) : Binary64 :=
  (sumOfSquares x y).sqrt

/-- An exact value has no relative uncertainty, not even at a mean of zero. -/
def relativeSigma (m : Measurement) : Binary64 :=
  if m.sigma.isZero then zero else m.sigma / m.mean

def neg (m : Measurement) : Measurement :=
  ⟨-m.mean, m.sigma⟩

def add (x y : Measurement) : Measurement :=
  ⟨x.mean + y.mean, combined x.sigma y.sigma⟩

def sub (x y : Measurement) : Measurement :=
  ⟨x.mean - y.mean, combined x.sigma y.sigma⟩

/-- A product or quotient has the combined relative uncertainty of its two sides. -/
def withRelative (mean : Binary64) (x y : Measurement) : Measurement :=
  ⟨mean, combined x.relativeSigma y.relativeSigma * mean.abs⟩

def mul (x y : Measurement) : Measurement :=
  withRelative (x.mean * y.mean) x y

def div (x y : Measurement) : Measurement :=
  withRelative (x.mean / y.mean) x y

/-- Both partial derivatives of the power, each weighed with an uncertainty; one that is zero drops
its derivative, even an undefined one. -/
def pow (x y : Measurement) : Measurement :=
  let mean := x.mean.pow y.mean
  let byBase :=
    if x.sigma.isZero then zero else y.mean * x.mean.pow (y.mean - one) * x.sigma
  let byExponent :=
    if y.sigma.isZero then zero else x.mean.log * mean * y.sigma
  ⟨mean, combined byBase byExponent⟩

def addNumber (m : Measurement) (k : Binary64) : Measurement :=
  ⟨m.mean + k, m.sigma⟩

def subNumber (m : Measurement) (k : Binary64) : Measurement :=
  ⟨m.mean - k, m.sigma⟩

def numberSub (k : Binary64) (m : Measurement) : Measurement :=
  ⟨k - m.mean, m.sigma⟩

def mulNumber (m : Measurement) (k : Binary64) : Measurement :=
  ⟨m.mean * k, m.sigma * k.abs⟩

def divNumber (m : Measurement) (k : Binary64) : Measurement :=
  ⟨m.mean / k, m.sigma / k.abs⟩

def equals (x y : Measurement) : Bool :=
  x.mean.equals y.mean && x.sigma.equals y.sigma

end Measurement
end Uncertainty
