/-
# Elementary functions near zero

The logarithm of one plus a number and the exponential of a number less one,
both precise to about one unit in the last place where the sum or the difference
would cancel.  A large argument is moved close to zero by a multiple of the
logarithm of two, which is kept in two parts so that nothing is lost.
-/

import LossyConsensus.Statistics.Polynomial

namespace LossyConsensus.Statistics

/-- The leading part of the logarithm of two.  Its last bits are zero, so that
small multiples of it are exact. -/
def logTwoHigh : Float := 6.93147180369123816490e-1

/-- What the leading part lacks of the logarithm of two. -/
def logTwoLow : Float := 1.90821492927058770002e-10

/-- Half the square of a number, and the terms of higher order in the logarithm
of one plus the number: a series in the quotient of the number by two more than
it. -/
def logTerms (x : Float) : Float × Float :=
  let half := 0.5 * x * x
  let quotient := x / (2.0 + x)
  let z := quotient * quotient
  let z2 := z * z
  let z4 := z2 * z2
  let z6 := z4 * z2
  let series := z * 6.666666666666735130e-1 +
    z2 * (3.999999999940941908e-1 + z * 2.857142874366239149e-1) +
    z4 * (2.222219843214978396e-1 + z * 1.818357216161805012e-1) +
    z6 * (1.531383769920937332e-1 + z * 1.479819860511658591e-1)
  (half, quotient * (half + series))

/-- One plus a number as a power of two times one plus a fraction near zero.
The rounding error of the sum is kept relative to it. -/
structure LogArgument where
  exponent : Float
  fraction : Float
  error : Float

/-- One plus a number, brought near one. -/
def LogArgument.ofOnePlus (x : Float) : LogArgument :=
  let sum := 1.0 + x
  let (mantissa, exponent) := Float.frExp sum
  let error := (if 2.0 ≤ sum then 1.0 - (sum - x) else x - (sum - 1.0)) / sum
  if 2.0 * mantissa < 1.4142131805419922 then
    { exponent := Float.ofInt (exponent - 1), fraction := 2.0 * mantissa - 1.0, error }
  else { exponent := Float.ofInt exponent, fraction := mantissa - 1.0, error }

/-- The logarithm of one plus a number. -/
def logOnePlus (x : Float) : Float :=
  if x.abs < Float.scaleB 1.0 (-54) then x
  else if x.abs < Float.scaleB 1.0 (-29) then x - x * x * 0.5
  else if -0.2928934097290039 < x && x < 0.4142136573791504 then
    let (half, rest) := logTerms x
    x - (half - rest)
  else
    let argument := LogArgument.ofOnePlus x
    let (half, rest) := logTerms argument.fraction
    let small := rest + (argument.exponent * logTwoLow + argument.error)
    argument.exponent * logTwoHigh - ((half - small) - argument.fraction)

/-- Half the square of a number, and a correction by which the exponential less
one is the number, less the number times the correction, plus that half. -/
def expTerms (x : Float) : Float × Float :=
  let half := x * (0.5 * x)
  let square := half * half
  let series := (1.0 + half * -3.33333333333331316428e-2) +
    square * (1.58730158725481460165e-3 + half * -7.93650757867487942473e-5) +
    square * square * (4.00821782732936239552e-6 + half * -2.01099218183624371326e-7)
  let rest := 3.0 - series * (0.5 * x)
  (half, half * ((series - rest) / (6.0 - x * rest)))

/-- The exponential less one of a number from zero to thirteen. -/
def expLessOne (x : Float) : Float :=
  if x < Float.scaleB 1.0 (-54) then x
  else if x < 0.3465735912322998 then
    let (half, correction) := expTerms x
    x - (x * correction - half)
  else
    let twos := if x < 1.0397205352783203 then 1
      else (1.44269504088896338700 * x + 0.5).toUInt64.toNat
    let high := x - Float.ofNat twos * logTwoHigh
    let low := Float.ofNat twos * logTwoLow
    let near := high - low
    let error := (high - near) - low
    let (half, correction) := expTerms near
    let excess := near * (correction - error) - error - half
    if twos == 1 then
      if near < -0.25 then -2.0 * (excess - (near + 0.5)) else 1.0 + 2.0 * (near - excess)
    else Float.scaleB ((1.0 - Float.scaleB 1.0 (-(twos : Int))) - (excess - near)) twos

end LossyConsensus.Statistics
