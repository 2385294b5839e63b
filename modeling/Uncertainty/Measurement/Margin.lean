import Uncertainty.Measurement
import Uncertainty.Binary64.Numeral

/-!
Approximate equality within a margin, relative to the larger of two numbers or, near zero, absolute.
-/
namespace Uncertainty

structure Margin where
  relative : Binary64
  absolute : Binary64

namespace Margin

def default : Margin :=
  ⟨Binary64.ofDecimal false 1 (-9), Binary64.ofDecimal false 1 (-12)⟩

def valid (margin : Margin) : Bool :=
  !margin.relative.less .zero && !margin.absolute.less .zero

/-- Equal numbers are close; otherwise an infinity is close to nothing. -/
def close (margin : Margin) (a b : Binary64) : Bool :=
  let distance := (b - a).abs
  a.equals b ||
    (!a.isInfinite && !b.isInfinite &&
      (distance.atMost (margin.relative * b).abs || distance.atMost (margin.relative * a).abs ||
        distance.atMost margin.absolute))

end Margin

namespace Measurement

/-- Closeness of the means and of the uncertainties; none if the margin has a negative part. -/
def approximates? (margin : Margin) (x y : Measurement) : Option Bool :=
  if margin.valid then some (margin.close x.mean y.mean && margin.close x.sigma y.sigma) else none

end Measurement
end Uncertainty
