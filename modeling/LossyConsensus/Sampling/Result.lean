/-
# Sampling results

The statistics of the valid runs at one delivery probability, and confidence
intervals for them.
-/

import LossyConsensus.Decimal.Places
import LossyConsensus.Simulation.Run
import LossyConsensus.Statistics.Domain
import LossyConsensus.Statistics.Pairwise
import LossyConsensus.Statistics.Student

namespace LossyConsensus.Sampling

open LossyConsensus.Simulation LossyConsensus.Statistics

/-- Statistics over the valid runs at one delivery probability. -/
structure Result (R : Type) where
  p : R
  repetitions : Int
  meanDiscrepancy : R
  varDiscrepancy : R
  consensusProbability : R
  meanByRound : List R
  attempts : Int
  requested : Int
  samples : List R
  tolerance : R
  deriving Repr, DecidableEq

/-- A result with its numbers replaced. -/
def Result.map {R S : Type} (f : R → S) (result : Result R) : Result S where
  p := f result.p
  repetitions := result.repetitions
  meanDiscrepancy := f result.meanDiscrepancy
  varDiscrepancy := f result.varDiscrepancy
  consensusProbability := f result.consensusProbability
  meanByRound := result.meanByRound.map f
  attempts := result.attempts
  requested := result.requested
  samples := result.samples.map f
  tolerance := f result.tolerance

/-- What the statistics need of a run. -/
structure Observation (R : Type) where
  final : R
  trace : List R
  deriving Repr, DecidableEq

/-- What the statistics need of a run's summary. -/
def Observation.ofSummary {R : Type} (summary : Summary R) : Observation R :=
  { final := summary.finalDiscrepancy, trace := summary.discrepancies }

/-- Traces of different lengths, in ascending order. -/
structure LengthMismatch where
  lengths : List Nat
  deriving Repr, DecidableEq

/-- The text of a length mismatch. -/
def LengthMismatch.message (mismatch : LengthMismatch) : String :=
  "Discrepancy traces differ in length: [" ++
    ", ".intercalate (mismatch.lengths.map toString) ++ "]"

section

variable {R : Type} [Scalar R]

/-- How many finals count as consensus. -/
def consensusCount (tolerance : R) (finals : List R) : Nat :=
  (finals.filter fun final => Scalar.le final tolerance).length

/-- The statistics of runs.  Without runs every statistic is zero, and the
trace holds `traceLength` zeros. -/
def aggregate (p tolerance : R) (runs : List (Observation R)) (attempts requested : Int)
    (traceLength : Nat) : Except LengthMismatch (Result R) :=
  if runs.isEmpty then
    .ok {
      p
      repetitions := 0
      meanDiscrepancy := Scalar.zero
      varDiscrepancy := Scalar.zero
      consensusProbability := Scalar.zero
      meanByRound := List.replicate traceLength Scalar.zero
      attempts
      requested
      samples := []
      tolerance }
  else
    let finals := runs.map (·.final)
    let lengths := (runs.map (·.trace.length)).eraseDups
    if lengths.length != 1 then .error ⟨lengths.mergeSort (· ≤ ·)⟩
    else
      .ok {
        p
        repetitions := runs.length
        meanDiscrepancy := pairwiseMean finals
        varDiscrepancy := sampleVariance finals
        consensusProbability :=
          Scalar.ofNat (consensusCount tolerance finals) / Scalar.ofNat finals.length
        meanByRound := columnMeans (runs.map (·.trace))
        attempts
        requested
        samples := finals
        tolerance }

end

namespace Result

/-- How many runs were tried and rejected. -/
def rejected {R : Type} (result : Result R) : Int :=
  result.attempts - result.repetitions

/-- The sample standard deviation of the final discrepancy. -/
def deviation (result : Result Float) : Except DomainError Float :=
  if result.repetitions < 2 then .ok 0.0 else root result.varDiscrepancy

/-- The interval of Student's distribution for the mean final discrepancy; none
for fewer than two runs. -/
def meanInterval (result : Result Float) (level : Float) :
    Except DomainError (Option (Float × Float)) :=
  if result.repetitions < 2 then .ok none
  else do
    let alpha := 1.0 - level
    let quantile := studentQuantile (1.0 - alpha / 2.0) (result.repetitions.toNat - 1)
    let deviation ← result.deviation
    let margin := quantile * deviation / Float.sqrt (Float.ofInt result.repetitions)
    return some (result.meanDiscrepancy - margin, result.meanDiscrepancy + margin)

/-- The Wald interval for the consensus probability, cut off at zero and one;
none without runs. -/
def consensusInterval (result : Result Float) (level : Float) :
    Except DomainError (Option (Float × Float)) :=
  if result.repetitions == 0 then .ok none
  else do
    let probability := result.consensusProbability
    let quantile := normalQuantile (1.0 - (1.0 - level) / 2.0)
    let count ← (Amount.integer result.repetitions).toReal
    let spread ← root (probability * (1.0 - probability) / count)
    let margin := quantile * spread
    return some (Scalar.greatest 0.0 [probability - margin],
      Scalar.least 1.0 [probability + margin])

/-- A result in words. -/
def text (result : Result Float) : Except DomainError String := do
  let deviation ← result.deviation
  let interval ← result.meanInterval 0.95
  let intervalLines := match interval with
    | some (low, high) =>
        ["  95% CI for E[D]: [" ++ Decimal.fixed 6 low ++ ", " ++ Decimal.fixed 6 high ++ "]"]
    | none => []
  let shortfallLines :=
    if result.repetitions < result.requested then
      ["  Only " ++ toString result.repetitions ++ " of " ++ toString result.requested ++
        " requested runs were valid"]
    else []
  return "\n".intercalate ([
    "Monte Carlo Results at p=" ++ Decimal.fixed 3 result.p ++ " (" ++
      toString result.repetitions ++ " runs, " ++ toString result.attempts ++ " attempts)",
    "  E[D]: " ++ Decimal.fixed 6 result.meanDiscrepancy ++ " (std: " ++
      Decimal.fixed 6 deviation ++ ")",
    "  P(consensus): " ++ Decimal.fixed 4 result.consensusProbability] ++
    intervalLines ++ shortfallLines)

/-- The text that shows a result in short. -/
def describe (result : Result Float) : String :=
  "MonteCarloResult(p=" ++ Decimal.realText result.p ++ ", n=" ++ toString result.repetitions ++
    ", mean_discrepancy=" ++ Decimal.fixed 6 result.meanDiscrepancy ++
    ", consensus_probability=" ++ Decimal.fixed 4 result.consensusProbability ++ ")"

end Result

end LossyConsensus.Sampling
