/-
# Reports

A report holds the results of one protocol over a sweep of delivery
probabilities.  It can be read like a sequence of results, as a table, or as a
summary in words.
-/

import LossyConsensus.Sampling.Sweep
import LossyConsensus.Slice
import LossyConsensus.Statistics.Position

namespace LossyConsensus.Study

open LossyConsensus.Sampling LossyConsensus.Statistics

/-- The results of one protocol over a sweep. -/
structure Report where
  name : String
  processes : Int
  rounds : Int
  repetitions : Int
  ps : List Float
  tolerance : Float
  results : List (Result Float)
  deriving Repr

/-- Why a report cannot be read as asked. -/
inductive ReportError
  | index (error : IndexError)
  | emptyGrid
  | zeroStep
  deriving Repr, DecidableEq

/-- The text of a report error. -/
def ReportError.message : ReportError → String
  | .index error => error.message "list"
  | .emptyGrid => "min() arg is an empty sequence"
  | .zeroStep => "slice step cannot be zero"

/-- A row of a report's table. -/
structure Row where
  p : Float
  meanDiscrepancy : Float
  varDiscrepancy : Float
  consensusProbability : Float
  repetitions : Int
  attempts : Int
  deriving Repr

namespace Report

/-- One row for each result. -/
def table (report : Report) : List Row :=
  report.results.map fun result => {
    p := result.p
    meanDiscrepancy := result.meanDiscrepancy
    varDiscrepancy := result.varDiscrepancy
    consensusProbability := result.consensusProbability
    repetitions := result.repetitions
    attempts := result.attempts }

/-- The text that shows a report in short. -/
def describe (report : Report) : String :=
  "ProtocolRun(name=" ++ Text.quote report.name ++ ", n_p=" ++
    toString report.results.length ++ ", repetitions=" ++ toString report.repetitions ++ ")"

/-- The result at an index. -/
def at? (report : Report) (index : Int) : Except ReportError (Result Float) :=
  (itemAt report.results index).mapError .index

/-- A slice of the results. -/
def slice (report : Report) (first last step : Option Int) :
    Except ReportError (List (Result Float)) :=
  match slice? report.results first last step with
  | some results => .ok results
  | none => .error .zeroStep

/-- The probability at an index of the grid. -/
def probabilityAt (report : Report) (index : Nat) : Except ReportError Float :=
  (itemAt report.ps index).mapError .index

/-- A report in words: the span of the grid, where consensus is most and least
frequent, and the range of the discrepancy. -/
def text (report : Report) : Except ReportError String :=
  match report.results.map (·.consensusProbability), report.results.map (·.meanDiscrepancy) with
  | first :: rest, firstMean :: restMeans => do
      let consensus := first :: rest
      let best := lastGreatest consensus
      let worst := firstLeast consensus
      let step := match report.ps with
        | p :: q :: _ => q - p
        | _ => 0.0
      let (lowest, highest) ← match report.ps with
        | p :: ps => .ok (Scalar.least p ps, Scalar.greatest p ps)
        | [] => .error .emptyGrid
      let bestP ← report.probabilityAt best
      let worstP ← report.probabilityAt worst
      return "\n".intercalate [
        "Protocol: " ++ report.name ++ " | processes=" ++ toString report.processes ++
          " rounds=" ++ toString report.rounds ++ " reps=" ++ toString report.repetitions ++
          " eps=" ++ Decimal.realText report.tolerance,
        "p span: " ++ Decimal.realText lowest ++ ".." ++ Decimal.realText highest ++ " step~" ++
          Decimal.general 4 step,
        "Consensus peaks at p=" ++ Decimal.realText bestP ++ ": " ++
          Decimal.fixed 3 (consensus.getD best 0.0),
        "Lowest consensus at p=" ++ Decimal.realText worstP ++ ": " ++
          Decimal.fixed 3 (consensus.getD worst 0.0),
        "Discrepancy min=" ++ Decimal.fixed 3 (Scalar.least firstMean restMeans) ++ " max=" ++
          Decimal.fixed 3 (Scalar.greatest firstMean restMeans)]
  | _, _ => .ok ("No Monte Carlo results available for " ++ report.name ++ ".")

end Report

end LossyConsensus.Study
