/-
# Plots of reports and results

A metric against the delivery probability, one curve a report; the consensus
probability with error bars; the mean discrepancy by round; and a histogram of
final discrepancies.
-/

import LossyConsensus.Figure.Basic
import LossyConsensus.Study.Condition

namespace LossyConsensus.Figure

open LossyConsensus.Sampling LossyConsensus.Statistics LossyConsensus.Study

/-- Why a figure cannot be drawn. -/
inductive FigureError
  | metric (error : ConditionError)
  | label (error : LabelError)
  | domain (error : DomainError)
  deriving Repr

/-- The text of a figure error. -/
def FigureError.message : FigureError → String
  | .metric error => error.message
  | .label error => error.message
  | .domain error => error.message

/-- The label of the axis of a metric. -/
def metricLabel : Metric → Except ConditionError String
  | .consensus => .ok "P(consensus)"
  | .discrepancy => .ok "E[D]"
  | .unknown name => .error (.unknownMetric name)

/-- The curve of a report's metric. -/
def reportCurve (metric : Metric) (labels : List String) (report : Report) (index : Nat) :
    Except FigureError Curve := do
  let name ← (labelOr report.name labels index).mapError .label
  let ys ← (report.metric metric).mapError .metric
  return { name, xs := report.results.map (·.p), ys, color := some (colorOf index) }

/-- A metric against the delivery probability. -/
def sweepPlot (reports : List Report) (metric : Metric) (title : Option String)
    (labels : List String) : Except FigureError Figure := do
  let axis ← (metricLabel metric).mapError .metric
  let title := some (titleOr (axis ++ " vs p") title)
  if reports.all (·.results.isEmpty) then
    return noData title
  let curves ← reports.zipIdx.mapM fun (report, index) => reportCurve metric labels report index
  return { title, axes := some { x := "p", y := axis, legend := true }, curves }

/-- The curve of a result's mean discrepancy by round. -/
def resultCurve (labels : List String) (result : Result Float) (index : Nat) :
    Except FigureError Curve := do
  let name ← (labelOr ("p=" ++ Decimal.general 6 result.p) labels index).mapError .label
  return {
    name
    xs := (List.range result.meanByRound.length).map Float.ofNat
    ys := result.meanByRound
    color := some (colorOf index) }

/-- The mean discrepancy by round.  Results without a trace are passed over but
keep their colour and label. -/
def roundPlot (results : List (Result Float)) (labels : List String) (title : Option String)
    (logarithmic : Bool) : Except FigureError Figure := do
  let traced := results.zipIdx.filter fun (result, _) => !result.meanByRound.isEmpty
  if traced.isEmpty then
    return noData title
  let curves ← traced.mapM fun (result, index) => resultCurve labels result index
  return { title, axes := some { x := "Round", y := "E[D]", legend := true, logarithmic }, curves }

/-- How far the interval of a result's consensus probability reaches above and
below it. -/
def errorBar (level : Float) (result : Result Float) : Except DomainError (Float × Float) := do
  let probability := result.consensusProbability
  let (low, high) := (← result.consensusInterval level).getD (probability, probability)
  return (high - probability, probability - low)

/-- The consensus probability with Wald error bars. -/
def intervalPlot (report : Report) (level : Float) (title color : Option String) :
    Except FigureError Figure := do
  let title := some (titleOr ("P(consensus) with " ++ Decimal.percent level ++ " CI") title)
  if report.results.isEmpty then
    return noData title
  let bars ← (report.results.mapM (errorBar level)).mapError .domain
  let curve : Curve := {
    name := report.name
    xs := report.results.map (·.p)
    ys := report.results.map (·.consensusProbability)
    color
    errors := some (bars.map (·.1), bars.map (·.2)) }
  return {
    title
    axes := some { x := "p", y := "P(consensus)", legend := false, fromZeroTo := some 1.05 }
    curves := [curve] }

/-- A histogram of the final discrepancies of a result's runs, with a line at
their mean on request. -/
def histogram (result : Result Float) (title : Option String) (count : Option Int)
    (color : Option String) (showMean : Bool) : Figure :=
  let title := some (titleOr ("Final discrepancy at p=" ++ Decimal.general 6 result.p) title)
  if result.samples.isEmpty then noData title
  else
    let mean := pairwiseMean result.samples
    let mark : Mark := { x := mean, note := "Mean: " ++ Decimal.fixed 3 mean }
    { title
      axes := some { x := "Final discrepancy", y := "Probability", legend := false }
      bars := some { samples := result.samples, count, color }
      mark := if showMean then some mark else none }

end LossyConsensus.Figure
