/-
# The normal quantile

A probability of zero or one has an infinite quantile, and one outside that
range has none.
-/

import LossyConsensus.Statistics.Domain
import LossyConsensus.Statistics.ErrorFunction

namespace LossyConsensus.Statistics

/-- The quantile of the standard normal distribution at a probability strictly
between zero and one. -/
def normalPoint (probability : Float) : Float :=
  -(inverseErfc (2.0 * probability)) * Float.sqrt 2.0

/-- A quantile that is given by `inside` for the probabilities strictly between
zero and one. -/
def quantileOf (inside : Float → Float) (probability : Float) : Float :=
  if probability == 0.0 then -infinity
  else if probability == 1.0 then infinity
  else if 0.0 < probability && probability < 1.0 then inside probability
  else undefined

/-- The quantile of the standard normal distribution. -/
def normalQuantile : Float → Float :=
  quantileOf normalPoint

end LossyConsensus.Statistics
