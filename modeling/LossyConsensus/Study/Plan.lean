/-
# Plans

A plan says how protocols are sampled: at which delivery probabilities, how
many rounds a run has, how many runs are wanted, and under which topology and
faults.
-/

import LossyConsensus.Sampling.Sweep

namespace LossyConsensus.Study

open LossyConsensus.Network LossyConsensus.Sampling

/-- The probabilities from zero to one in steps of a twentieth. -/
def evenGrid : List Float :=
  (List.range 21).map fun k => Float.ofScientific (5 * k) true 2

/-- How protocols are sampled. -/
structure Plan where
  ps : List Float := evenGrid
  rounds : Int := 1
  repetitions : Int := 2000
  seed : Int := 123
  tolerance : Float := 1e-6
  workers : Int := 1
  topology : Option (Topology Value) := none
  faults : Option (Fault Value) := none
  limit : Int := 0

namespace Plan

/-- The sampling configuration of a plan. -/
def config (plan : Plan) : Config Value where
  repetitions := plan.repetitions
  seed := plan.seed
  tolerance := .ofReal plan.tolerance
  workers := plan.workers

/-- What the points of a plan's sweep share. -/
def settings (plan : Plan) (config : Config Value) : SweepSettings Value where
  rounds := plan.rounds
  config := config
  topology := plan.topology
  faults := plan.faults
  limit := plan.limit

end Plan

end LossyConsensus.Study
