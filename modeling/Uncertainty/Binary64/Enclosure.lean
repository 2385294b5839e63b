/-!
Fixed-point enclosures of non-negative reals, and the two series that elementary functions need.
Every step rounds the lower end down and the upper end up, so the exact value stays enclosed.
-/
namespace Uncertainty

/-- The reals from `low / 2 ^ precision` to `high / 2 ^ precision`, for a precision known from the
context. -/
structure Enclosure where
  low : Nat
  high : Nat

namespace Enclosure

def quotient (precision numerator denominator : Nat) : Enclosure :=
  let low := (numerator <<< precision) / denominator
  ⟨low, low + 1⟩

def add (x y : Enclosure) : Enclosure :=
  ⟨x.low + y.low, x.high + y.high⟩

def times (n : Nat) (x : Enclosure) : Enclosure :=
  ⟨n * x.low, n * x.high⟩

def part (n : Nat) (x : Enclosure) : Enclosure :=
  ⟨x.low / n, x.high / n + 1⟩

def mul (precision : Nat) (x y : Enclosure) : Enclosure :=
  ⟨(x.low * y.low) >>> precision, ((x.high * y.high) >>> precision) + 1⟩

/-- `1/d + s/(d+2) + s²/(d+4) + …` from the innermost term out; with `s` at most `1/9` and `d`
positive, what is cut off lies between 0 and 2. -/
def oddSeries (precision : Nat) (square : Enclosure) : Nat → Nat → Enclosure
  | 0, _ => ⟨0, 2 <<< precision⟩
  | terms + 1, d =>
    (quotient precision 1 d).add (mul precision square (oddSeries precision square terms (d + 2)))

/-- Half the logarithm of `b / a`, for `a ≤ b ≤ 2 * a`: the series in `(b - a) / (b + a)`, at most
a third, which gains three binary digits with each term. -/
def halfLogarithm (precision a b : Nat) : Enclosure :=
  let t := quotient precision (b - a) (b + a)
  mul precision t (oddSeries precision (mul precision t t) (precision / 3 + 1) 1)

def logarithmOfTwo (precision : Nat) : Enclosure :=
  (halfLogarithm precision 1 2).times 2

/-- The absolute value of the logarithm of `units / 2 ^ 1074`. A number below one is inverted, so
that all parts are non-negative and none cancels another. -/
def logarithm (precision units : Nat) : Enclosure :=
  let binade := units.log2
  let (doublings, rest) :=
    if 1074 ≤ binade then (binade - 1074, halfLogarithm precision (1 <<< binade) units)
    else (1073 - binade, halfLogarithm precision units (1 <<< (binade + 1)))
  ((logarithmOfTwo precision).times doublings).add (rest.times 2)

/-- `1 + r/n + r²/(n(n+1)) + …` from the innermost term out; for `r` below 2 and `n` positive, what
is cut off lies between 1 and 8. -/
def exponentialSeries (precision : Nat) (r : Enclosure) : Nat → Nat → Enclosure
  | 0, _ => ⟨1 <<< precision, 8 <<< precision⟩
  | terms + 1, n =>
    add ⟨1 <<< precision, 1 <<< precision⟩
      (part n (mul precision r (exponentialSeries precision r terms (n + 1))))

/-- The exponential of `z` or, if `inverted`, of `-z`, as a power of two and a factor: what remains
of the argument without multiples of the logarithm of two lies between 0 and 2. -/
def exponential (precision : Nat) (inverted : Bool) (z : Enclosure) : Int × Enclosure :=
  let two := logarithmOfTwo precision
  let series r := exponentialSeries precision r (precision / 4 + 10) 1
  if inverted then
    let halvings := z.high / two.low + 1
    (-halvings, series ⟨halvings * two.low - z.high, halvings * two.high - z.low⟩)
  else
    let doublings := z.low / two.high
    (doublings, series ⟨z.low - doublings * two.high, z.high - doublings * two.low⟩)

end Enclosure
end Uncertainty
