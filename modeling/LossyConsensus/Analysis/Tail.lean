/-
# Distribution of convergence times

Order statistics of the rounds that runs need until consensus.  A rank is found
by exact comparison with a fraction of the number of runs, so over exact
scalars the bounds cover the fraction that they promise.
-/

import LossyConsensus.Scalar
import LossyConsensus.Slice
import LossyConsensus.Statistics.Pairwise

namespace LossyConsensus.Analysis

open LossyConsensus.Statistics

/-- A confidence that is not strictly between zero and one. -/
structure ConfidenceError (R : Type) where
  confidence : R
  deriving Repr, DecidableEq

variable {R : Type} [Scalar R]

/-- Whether a value may stand before another one in ascending order.  Values
that are no numbers come last. -/
def ascends (a b : R) : Bool :=
  Scalar.le a b || !Scalar.eq b b

/-- The values in ascending order. -/
def sorted (values : List R) : List R :=
  values.mergeSort ascends

/-- The integer part of a scalar that has one, and zero otherwise. -/
def wholePart (value : R) : Int :=
  match Scalar.truncate value with
  | .ok whole => whole
  | .error _ => 0

/-- The least integer that is not below a scalar that is not negative. -/
def ceiling (value : R) : Int :=
  let whole := wholePart value
  if Scalar.lt (Scalar.ofNat whole.toNat) value then whole + 1 else whole

/-- The rank of the lower bound among `count` values, from 1. -/
def lowerRank (count : Nat) (confidence : R) : Int :=
  let alpha : R := Scalar.ofNat 1 - confidence
  max 1 (wholePart (Scalar.ofNat count * alpha / Scalar.ofNat 2))

/-- The rank of the upper bound among `count` values, from 1. -/
def upperRank (count : Nat) (confidence : R) : Int :=
  let alpha : R := Scalar.ofNat 1 - confidence
  min count (ceiling (Scalar.ofNat count * (Scalar.ofNat 1 - alpha / Scalar.ofNat 2)))

/-- A value that is no number, where scalars have one. -/
def noNumber : R := Scalar.zero / Scalar.zero

/-- The value of a rank. -/
def atRank (values : List R) (rank : Int) : R :=
  (itemAt? values (rank - 1)).getD noNumber

/-- The mean of convergence times, and the two values between which the given
part of them lies. -/
def tailBounds (rounds : List R) (confidence : R) : Except (ConfidenceError R) (R × R × R) :=
  if !(Scalar.lt Scalar.zero confidence && Scalar.lt confidence (Scalar.ofNat 1)) then
    .error ⟨confidence⟩
  else
    let values := sorted rounds
    let count := values.length
    .ok (pairwiseMean values, atRank values (lowerRank count confidence),
      atRank values (upperRank count confidence))

/-- The rank below which the given part of `count` values lies, from 1. -/
def percentileRank (count : Nat) (part : R) : Int :=
  min count (ceiling (part * Scalar.ofNat count))

/-- The mean, the median, and the 90th and the 99th percentile of convergence
times.  Runs that did not converge, whose time is negative, are left out. -/
def expectedRounds (rounds : List R) : R × R × R × R :=
  let values := sorted (rounds.filter fun time => Scalar.le Scalar.zero time)
  let count := values.length
  let percentile (numerator denominator : Nat) : R :=
    let part : R := Scalar.ofNat numerator / Scalar.ofNat denominator
    atRank values (percentileRank count part)
  (pairwiseMean values, atRank values (count / 2 + 1), percentile 9 10, percentile 99 100)

/-- The fraction of the traces whose discrepancy in a round is below a bound.
A trace too short for the round has not converged; a negative round counts from
the end, and then the trace must reach back that far. -/
def convergedFraction (traces : List (List R)) (bound : R) (round : Int) :
    Except IndexError R :=
  if traces.isEmpty then .ok Scalar.zero
  else do
    let flags ← traces.mapM fun trace =>
      if round < (trace.length : Int) then
        (itemAt trace round).map fun value => Scalar.lt value bound
      else .ok false
    return Scalar.ofNat (flags.filter id).length / Scalar.ofNat traces.length

end LossyConsensus.Analysis
