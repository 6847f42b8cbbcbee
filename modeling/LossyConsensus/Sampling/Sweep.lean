/-
# Sweeps

One protocol sampled at a list of delivery probabilities.  The point with index
`k` takes its seeds from the base seed plus `k`.  A sweep that stops at an
error keeps the points before it.
-/

import LossyConsensus.Sampling.Trial

namespace LossyConsensus.Sampling

open LossyConsensus.Network LossyConsensus.Simulation

/-- Why a sweep stops at a point. -/
inductive PointError (R : Type)
  | bind (error : BindError R)
  | trial (error : TrialError R)
  deriving Repr, DecidableEq

/-- The text of a point error. -/
def PointError.message : PointError Value → String
  | .bind error => error.message
  | .trial error => error.message

/-- A finished point of a sweep. -/
structure Point (R : Type) where
  p : R
  seed : Int
  trial : Trial R

/-- A sweep: its finished points, and the point at which it stopped. -/
structure Sweep (R : Type) where
  points : List (Point R)
  stopped : Option (R × Int × PointError R)

/-- What all points of a sweep share. -/
structure SweepSettings (R : Type) where
  rounds : Int
  config : Config R
  topology : Option (Topology R)
  faults : Option (Fault R)
  limit : Int

variable {R : Type} [Scalar R]

/-- Sample one point. -/
def samplePoint (protocol : LossyConsensus.Protocol R) (settings : SweepSettings R) (p : R)
    (seed : Int) : Except (PointError R) (Point R) := do
  let experiment ← (Experiment.ofProtocol protocol p settings.rounds settings.topology
    settings.faults).mapError .bind
  let trial ← (sample experiment { settings.config with seed } settings.limit).mapError .trial
  return { p, seed, trial }

/-- Sample the points of a list, the first with the given seed. -/
def sweepFrom (protocol : LossyConsensus.Protocol R) (settings : SweepSettings R) :
    Int → List R → Sweep R
  | _, [] => ⟨[], none⟩
  | seed, p :: rest =>
      match samplePoint protocol settings p seed with
      | .error error => ⟨[], some (p, seed, error)⟩
      | .ok point =>
          let later := sweepFrom protocol settings (seed + 1) rest
          { later with points := point :: later.points }

/-- Sample a protocol at a list of delivery probabilities. -/
def sweep (protocol : LossyConsensus.Protocol R) (settings : SweepSettings R) (ps : List R) :
    Sweep R :=
  sweepFrom protocol settings settings.config.seed ps

namespace Sweep

/-- The results of a sweep that did not stop. -/
def results (sweep : Sweep R) : Except (PointError R) (List (Result R)) :=
  match sweep.stopped with
  | some (_, _, error) => .error error
  | none => .ok (sweep.points.map fun point => point.trial.result)

/-- The shortfalls of the points, in order. -/
def shortfalls (sweep : Sweep R) : List (Shortfall R) :=
  sweep.points.filterMap fun point => point.trial.shortfall

/-- The traced runs of the points, in order. -/
def traced (sweep : Sweep R) : List (TracedRun R) :=
  sweep.points.flatMap fun point => point.trial.traced

end Sweep

end LossyConsensus.Sampling
