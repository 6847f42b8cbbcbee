/-
# Comparisons

Two subjects examined under one plan and contrasted: by the mean consensus
probability on either side of one half, point by point in a table, or by
conditions that have to hold.
-/

import LossyConsensus.Study.Examination

namespace LossyConsensus.Study

/-- Two reports under comparison. -/
structure Pair where
  first : Report
  second : Report

/-- The results of two reports at one probability. -/
structure PairedRow where
  p : Float
  firstConsensus : Float
  secondConsensus : Float
  firstDiscrepancy : Float
  secondDiscrepancy : Float
  deriving Repr

/-- Which report has the higher consensus on average over points selected by
the text `place`. -/
def dominanceText (place : String) (differences : List Float) : String :=
  let mean := Scalar.mean differences
  "For " ++ place ++ ", " ++
    if 0.0 < mean then "protocol A has higher consensus on average."
    else if mean < 0.0 then "protocol B has higher consensus on average."
    else "no clear dominance."

namespace Pair

/-- The results of both reports, in pairs. -/
def results (pair : Pair) : List (Sampling.Result Float × Sampling.Result Float) :=
  pair.first.results.zip pair.second.results

/-- One row for each probability of the first report and pair of results. -/
def table (pair : Pair) : List PairedRow :=
  (pair.first.ps.zip pair.results).map fun (p, first, second) => {
    p
    firstConsensus := first.consensusProbability
    secondConsensus := second.consensusProbability
    firstDiscrepancy := first.meanDiscrepancy
    secondDiscrepancy := second.meanDiscrepancy }

/-- How far the consensus probability of the first report lies above that of
the second, with the probabilities of the first report. -/
def differences (pair : Pair) : List (Float × Float) :=
  pair.first.ps.zip (pair.results.map fun (first, second) =>
    first.consensusProbability - second.consensusProbability)

/-- The comparison in words, above and below one half. -/
def dominance (pair : Pair) : String :=
  let high := (pair.differences.filter fun (p, _) => 0.5 < p).map (·.2)
  let low := (pair.differences.filter fun (p, _) => p < 0.5).map (·.2)
  let highTexts := if high.isEmpty then [] else [dominanceText "p > 0.5" high]
  let lowTexts := if low.isEmpty then [] else [dominanceText "p < 0.5" low]
  let texts := highTexts ++ lowTexts
  if texts.isEmpty then "No clear dominance under current settings."
  else " ".intercalate texts

/-- Both reports and their comparison in words. -/
def text (pair : Pair) : Except ReportError String := do
  let first ← pair.first.text
  let second ← pair.second.text
  return "\n".intercalate ["Study summary", "--------------", first, "", second, "",
    "Comparison:", pair.dominance]

end Pair

/-- Examine two subjects under one plan. -/
def study (plan : Plan) (details : Bool) (first second : Subject) : Examination Pair :=
  (examine plan none details first).andThen fun firstReport =>
    (examine plan none details second).andThen fun secondReport =>
      { outcome := .ok ⟨firstReport, secondReport⟩ }

/-- Two reports for which conditions hold. -/
structure Comparison where
  pair : Pair
  conditions : List Condition
  verdict : Verdict

/-- The text that shows a comparison in short. -/
def Comparison.describe (comparison : Comparison) : String :=
  "ComparisonResult(" ++ comparison.pair.first.name ++ " vs " ++ comparison.pair.second.name ++
    ", " ++ (if comparison.verdict.holds then "passed" else "failed") ++ ")"

/-- Whether two grids hold equal probabilities at all places. -/
def sameGrid (first second : List Float) : Bool :=
  first.length == second.length && (first.zip second).all fun (p, q) => p == q

/-- Judge written conditions on two reports with the same grid; it is a failure
if they do not hold. -/
def Pair.compare (pair : Pair) (conditions : String) : Except Failure Comparison := do
  if !sameGrid pair.first.ps pair.second.ps then
    throw .incomparable
  let names : Source.Names := { first := pair.first.name, second := pair.second.name }
  let conditions ← (Source.readConditions names conditions).mapError .conditions
  let verdict ← (judge pair.first pair.second conditions).mapError .condition
  if verdict.holds then
    return { pair, conditions, verdict }
  else
    throw (.unmet pair.first.name pair.second.name verdict)

/-- Examine two subjects under one plan and judge written conditions on their
reports. -/
def compare (plan : Plan) (details : Bool) (first second : Subject) (conditions : String) :
    Examination Comparison :=
  ((study plan details first second).andThen fun pair =>
    { outcome := pair.compare conditions }).shielded details

end LossyConsensus.Study
