/-
# Student's quantile

The quantile of Student's distribution for a number of degrees of freedom.  For
one, two, four and very many degrees it has a closed form.  Otherwise an
estimate, from a series around the middle or one in the tail, is improved by one
step on the incomplete beta integral.
-/

import LossyConsensus.Statistics.Beta
import LossyConsensus.Statistics.Quantile

namespace LossyConsensus.Statistics

namespace Student

/-- An estimate by an expansion around the normal quantile, or near its end by
one in powers of the probability `p`. -/
def expansion (n p : Float) : Float :=
  let a := 1.0 / (n - 0.5)
  let b := 48.0 / (a * a)
  let c := ((20700.0 * a / b - 98.0) * a - 16.0) * a + 96.36000061035156
  let d := ((94.5 / (b + c) - 3.0) / b + 1.0) * Float.sqrt (a * pi / 2.0) * n
  let y := Float.pow (d * 2.0 * p) (2.0 / n)
  let y :=
    if 0.05000000074505806 + a < y then
      let x := normalPoint p
      let y := x * x
      let c := if n < 5.0 then c + 0.30000001192092896 * (n - 4.5) * (x + 0.6000000238418579)
        else c
      let c := c + ((((0.05000000074505806 * d * x - 5.0) * x - 7.0) * x - 2.0) * x + b)
      let y := (((((0.4000000059604645 * y + 6.300000190734863) * y + 36.0) * y + 94.5) / c - y -
        3.0) / b + 1.0) * x
      expLessOne (a * y * y)
    else
      ((1.0 / (((n + 6.0) / (n * y) - 0.08900000154972076 * d - 0.8220000267028809) *
        (n + 2.0) * 3.0) + 0.5 / (n + 4.0)) * y - 1.0) * (n + 1.0) / (n + 2.0) + 1.0 / y
  Float.neg (Float.sqrt (n * y))

/-- The coefficients of the series in the tail for `n` degrees of freedom. -/
def tailCoefficients (n : Float) : List Float :=
  let two := n + 2.0
  let four := n + 4.0
  let six := n + 6.0
  let eight := n + 8.0
  let ten := n + 10.0
  let squareTwo := two * two
  let cubeTwo := squareTwo * two
  let fourthTwo := cubeTwo * two
  let fifthTwo := fourthTwo * two
  let sixthTwo := fifthTwo * two
  let squareFour := four * four
  let cubeFour := squareFour * four
  let squareSix := six * six
  [1.0,
    -(n + 1.0) / (2.0 * two),
    -n * (n + 1.0) * (n + 3.0) / (8.0 * squareTwo * four),
    -n * (n + 1.0) * (n + 5.0) * ((3.0 * n + 7.0) * n - 2.0) / (48.0 * cubeTwo * four * six),
    -n * (n + 1.0) * (n + 7.0) *
      (((((15.0 * n + 154.0) * n + 465.0) * n + 286.0) * n - 336.0) * n + 64.0) /
      (384.0 * fourthTwo * squareFour * six * eight),
    -n * (n + 1.0) * (n + 3.0) * (n + 9.0) *
      ((((((35.0 * n + 452.0) * n + 1573.0) * n + 600.0) * n - 2020.0) * n + 928.0) * n - 128.0) /
      (1280.0 * fifthTwo * squareFour * six * eight * ten),
    -n * (n + 1.0) * (n + 11.0) *
      (((((((((((945.0 * n + 31506.0) * n + 425858.0) * n + 2980236.0) * n + 11266745.0) * n +
        20675018.0) * n + 7747124.0) * n - 22574632.0) * n - 8565600.0) * n + 18108416.0) * n -
        7099392.0) * n + 884736.0) /
      (46080.0 * sixthTwo * cubeFour * squareSix * eight * ten * (n + 12.0))]

/-- An estimate by a series in the tail. -/
def tail (n p : Float) : Float :=
  let w := gammaRatio (n / 2.0) 0.5 * Float.sqrt (n * pi) * p
  let root := Float.sqrt n
  let divisor := Float.pow (root * w) (1.0 / n)
  Float.neg (polynomial (tailCoefficients n) (divisor * divisor) * root / divisor)

/-- An estimate for six degrees of freedom, by one step on the polynomial
equation that the quantile solves. -/
def sixDegrees (p : Float) : Float :=
  let a := 4.0 * (p - p * p)
  let start := 6.0 * (1.0 + 0.85498797333834849467655443627193 * (1.0 / Float.cbrt a - 1.0))
  let second := start * start
  let fourth := second * second
  let fifth := start * fourth
  let square := 2.0 * (8.0 * a * fifth - 270.0 * second + 2187.0) /
    (5.0 * (4.0 * a * fourth - 216.0 * start - 243.0))
  Float.neg (Float.sqrt (square - 6.0))

/-- The quantile at a probability below one half where it has a closed form. -/
def closed? (n p : Float) : Option Float :=
  let q := 1.0 - p
  if n == 1.0 then some (-(Float.cos (pi * p)) / Float.sin (pi * p))
  else if n == 2.0 then some ((2.0 * p - 1.0) / Float.sqrt (2.0 * p * q))
  else if n == 4.0 then
    let root := Float.sqrt (4.0 * p * q)
    some (-(Float.sqrt (4.0 * Float.cos (Float.acos root / 3.0) / root - 4.0)))
  else if 1e20 ≤ n then some (normalPoint p)
  else none

/-- The probability below which the series in the tail is used. -/
def tailLimit (n : Float) : Float :=
  Float.exp2 (Float.round (n / -0.6539999842643738))

/-- An estimate of the quantile at a probability below one half. -/
def estimate (n p : Float) : Float :=
  if n == 6.0 then sixDegrees p
  else if 268435456.0 < n then normalPoint p
  else if tailLimit n < p then expansion n p
  else tail n p

/-- An estimate improved by a step that uses the density and its slope. -/
def improve (n p estimate : Float) : Float :=
  let square := estimate * estimate
  let x := n / (n + square)
  let y := square / (n + square)
  if estimate == 0.0 || x == 0.0 then estimate
  else
    let (value, slope) :=
      if x < y then BetaPoint.ratio { a := n / 2.0, b := 0.5, x, y := 1.0 - x } false
      else BetaPoint.ratio { a := 0.5, b := n / 2.0, x := y, y := 1.0 - y } true
    let error := value / 2.0 - p
    let density := slope * Float.sqrt (y * x * x * x / n)
    let curvature := estimate * (n + 1.0) / (square + n)
    Float.neg (estimate.abs + error / (density + error * curvature / 2.0))

/-- The quantile at a probability of at most one half. -/
def lowerHalf (n p : Float) : Float :=
  if p == 0.5 then 0.0
  else match closed? n p with
    | some value => value
    | none => improve n p (estimate n p)

end Student

/-- The quantile of Student's distribution with `freedom` degrees of freedom. -/
def studentQuantile (probability : Float) (freedom : Nat) : Float :=
  let n := Float.ofNat freedom
  quantileOf (fun p => if 0.5 < p then -(Student.lowerHalf n (1.0 - p))
    else Student.lowerHalf n p) probability

end LossyConsensus.Statistics
