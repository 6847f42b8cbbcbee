/-
# Sweeps and topologies

Where in a sweep the convergence time changes fastest, and how observed rounds
and rates relate to the diameter of the topology.
-/

import LossyConsensus.Analysis.Convergence
import LossyConsensus.Statistics.Position

namespace LossyConsensus.Analysis

open LossyConsensus.Statistics

/-- Two lists that should have equal lengths. -/
structure LengthError where
  first : Nat
  second : Nat
  deriving Repr, DecidableEq

/-- The differences of neighbouring values. -/
def differences (values : List Float) : List Float :=
  List.zipWith (fun before after => after - before) values (values.drop 1)

/-- The steepness of one step; a step without width is flat. -/
def steepness (width height : Float) : Float :=
  if zeroTolerance < width.abs then (height / width).abs else 0.0

/-- The right end of the first steepest step of a sweep of at least three
points.  A step whose steepness is no number counts as steepest. -/
def phaseTransition (ps times : List Float) : Except LengthError Float :=
  if ps.length != times.length then .error ⟨ps.length, times.length⟩
  else if ps.length < 3 then .ok undefined
  else
    let slopes := List.zipWith steepness (differences ps) (differences times)
    .ok (ps.getD (firstGreatest slopes + 1) undefined)

/-- The ratio of observed rounds to the diameter over the probability; lower is
better. -/
def boundEfficiency (rounds diameter : Amount) (p : Float) : Except DomainError Float :=
  if p < zeroTolerance || diameter.isAtMostZero then .ok undefined
  else do
    let bound ← quotient (← diameter.toReal) p
    quotient (← rounds.toReal) bound

/-- A spectral gap such that the convergence rate is the gap over the
diameter. -/
def spectralGap (rate : Float) (diameter : Amount) : Except DomainError Float :=
  if diameter.isAtMostZero then .ok undefined
  else do
    return rate * (← diameter.toReal)

end LossyConsensus.Analysis
