/-
# Convergence of discrepancies

How fast a trace of discrepancies, indexed by round from 0, shrinks, and how
far the traces of several runs lie apart.  Where nothing can be estimated the
answer is no number.
-/

import LossyConsensus.Statistics.Domain
import LossyConsensus.Statistics.Pairwise

namespace LossyConsensus.Analysis

open LossyConsensus.Statistics

/-- What counts as zero. -/
def zeroTolerance : Float := 1e-10

/-- The rounds whose discrepancy is positive, with the discrepancies. -/
def positiveRounds (trace : List Float) : List (Float × Float) :=
  (trace.zipIdx.filter fun (value, _) => zeroTolerance < value).map fun (value, round) =>
    (Float.ofNat round, value)

/-- The distances of values from their mean. -/
def centred (values : List Float) : List Float :=
  values.map fun value => value - pairwiseMean values

/-- The exponential decay rate of a trace, by a least-squares line through the
logarithms of its positive values; at least three of them are needed. -/
def convergenceRate (trace : List Float) : Float :=
  let samples := positiveRounds trace
  let rounds := centred (samples.map (·.1))
  let logs := centred (samples.map fun sample => Float.log sample.2)
  let denominator := pairwiseSum (rounds.map fun round => round * round)
  if samples.length < 3 || denominator.abs < zeroTolerance then undefined
  else -(pairwiseSum (List.zipWith (· * ·) rounds logs) / denominator)

/-- The first round whose discrepancy is below a bound, or -1. -/
def timeToConsensus (trace : List Float) (bound : Float) : Int :=
  match trace.findIdx? fun value => value < bound with
  | some round => round
  | none => -1

/-- The mean over rounds of the spread between traces, cut to the shortest of
them. -/
def stability (traces : List (List Float)) : Float :=
  match traces with
  | [] => undefined
  | first :: rest =>
      let length := rest.foldl (fun least trace => min least trace.length) first.length
      if length == 0 then undefined
      else if rest.isEmpty then 0.0
      else
        pairwiseMean ((columnVariances (traces.map fun trace => trace.take length)).map Float.sqrt)

/-- The ratio of two discrepancies; zero when the first is already zero. -/
def contraction (before after : Float) : Float :=
  if before < zeroTolerance then 0.0 else after / before

/-- The contractions of the steps that start at a positive discrepancy. -/
def contractions (trace : List Float) : List Float :=
  ((trace.zip (trace.drop 1)).filter fun (before, _) => zeroTolerance < before).map
    fun (before, after) => contraction before after

/-- The geometric mean of the contractions; zero if one of them is. -/
def averageContraction (trace : List Float) : Except DomainError Float :=
  let factors := contractions trace
  if factors.isEmpty then .ok undefined
  else if factors.any (· == 0.0) then .ok 0.0
  else do
    let logs ← factors.mapM logarithm
    return Float.exp (Scalar.mean logs)

/-- The decay rate of the variance across processes, state by state. -/
def varianceRate (states : List (List Float)) : Float :=
  convergenceRate (states.map sampleVariance)

end LossyConsensus.Analysis
