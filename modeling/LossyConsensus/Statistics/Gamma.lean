/-
# The gamma function

What the incomplete beta integral needs of the gamma function: the rational
factor by which it differs from a power over an exponential, quotients of its
values, and its incomplete form for the parameter one half.
-/

import LossyConsensus.Statistics.Elementary
import LossyConsensus.Statistics.ErrorFunction

namespace LossyConsensus.Statistics

/-- How far the base of the power is shifted. -/
def gammaShift : Float := 6.024680040776729583740234375

/-- The denominator of the rational factor: the product of `x` to `x + 11`. -/
def gammaDenominator : List Float :=
  [0.0, 39916800.0, 120543840.0, 150917976.0, 105258076.0, 45995730.0, 13339535.0, 2637558.0,
    357423.0, 32670.0, 1925.0, 66.0, 1.0]

/-- The rational factor, scaled by the exponential of the shift. -/
def scaledFactor : Float → Float :=
  rational [56906521.91347156388090791033559122686859, 103794043.1163445451906271053616070238554,
    86363131.28813859145546927288977868422342, 43338889.32467613834773723740590533316085,
    14605578.08768506808414169982791359218571, 3481712.15498064590882071018964774556468,
    601859.6171681098786670226533699352302507, 75999.29304014542649875303443598909137092,
    6955.999602515376140356310115515198987526, 449.9445569063168119446858607650988409623,
    19.51992788247617482847860966235652136208, 0.5098416655656676188125178644804694509993,
    0.006061842346248906525783753964555936883222] gammaDenominator

/-- The rational factor. -/
def gammaFactor : Float → Float :=
  rational [23531376880.41075968857200767445163675473076,
    42919803642.64909876895789904700198885093263, 35711959237.35566804944018545154716670596718,
    17921034426.03720969991975575445893111267403, 6039542586.352028005064291644307297921069938,
    1439720407.311721673663223072794912393972254, 248874557.8620541565114603864132294232163077,
    31426415.58540019438061423162831820536287787, 2876370.628935372441225409051620849613599112,
    186056.2653952234950402949897160456992822505, 8071.672002365816210638002902272250613821851,
    210.8242777515793458725097339207133627117643, 2.506628274631000270164908177133837338626]
    gammaDenominator

/-- The gamma function at `z` over the one at `z + delta`. -/
def gammaRatio (z delta : Float) : Float :=
  let base := z + gammaShift - 0.5
  let quotient :=
    if z + delta == z then
      if Float.abs (delta / base) < epsilon then Float.exp (-delta) else 1.0
    else
      let power :=
        if delta.abs < 10.0 then Float.exp ((0.5 - z) * logOnePlus (delta / base))
        else Float.pow (base / (base + delta)) (z - 0.5)
      power * (gammaFactor z / gammaFactor (z + delta))
  quotient * Float.pow (e / (base + delta)) delta

/-- The power and the exponential of the incomplete gamma function of one half,
over the complete one. -/
def halfPrefix (x : Float) : Float :=
  Float.pow x 0.5 * Float.exp (-x) / 1.7724538509055159

/-- Add the terms of the lower incomplete gamma function of one half until they
no longer matter; `steps` bounds their number. -/
def lowerTerms (x : Float) : Nat → Float → Float → Float → Float
  | 0, _, _, sum => sum
  | steps + 1, a, term, sum =>
      let sum := sum + term
      if epsilon * sum.abs < term.abs then
        lowerTerms x steps (a + 1.0) (term * (x / (a + 1.0))) sum
      else sum

/-- The part of the gamma integral of one half that lies above `x`. -/
def upperHalf (x : Float) : Float :=
  if 0.2 < x then erfc (Float.sqrt x)
  else
    let front := halfPrefix x
    Float.neg (front * (lowerTerms x 1000 0.5 1.0 (1.0 / front * (-0.5)) / 0.5))

end LossyConsensus.Statistics
