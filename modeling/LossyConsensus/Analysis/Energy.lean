/-
# Energy and mixing

The squared distance of a state from its mean, which is zero exactly at
consensus, and the time after which a run stays near the mean it ends with.
-/

import LossyConsensus.Statistics.Pairwise

namespace LossyConsensus.Analysis

open LossyConsensus.Statistics

/-- The sum of the squared distances from the mean. -/
def energy (state : List Float) : Float :=
  if state.isEmpty then 0.0 else pairwiseSum (squaredDistances (pairwiseMean state) state)

/-- The energy of every state of a run. -/
def energies (states : List (List Float)) : List Float :=
  states.map energy

/-- The first state with every value near the mean of the last state, or -1. -/
def mixingTime (states : List (List Float)) (bound : Float) : Int :=
  match states.getLast? with
  | none => -1
  | some last =>
      let target := pairwiseMean last
      match states.findIdx? fun state => state.all fun value => (value - target).abs < bound with
      | some round => round
      | none => -1

end LossyConsensus.Analysis
