/-
# Conditions on two reports

A condition selects the delivery probabilities above or below a threshold and
compares the mean of one metric over the selected points between two reports.
Conditions are judged in order, and the first that does not hold decides.
-/

import LossyConsensus.Protocol.Evaluate
import LossyConsensus.Study.Report

namespace LossyConsensus.Study

open LossyConsensus.Protocol

/-- The side of a threshold on which probabilities are selected. -/
inductive Side
  | above | below
  deriving Repr, DecidableEq

/-- The sign of a side. -/
def Side.sign : Side → String
  | .above => ">"
  | .below => "<"

/-- The metrics that reports are compared by.  An `unknown` one is known by its
name only, if at all; no text of a condition denotes it and no report has
it. -/
inductive Metric
  | consensus | discrepancy
  | unknown (name : Option String)
  deriving Repr, DecidableEq

/-- The name of a metric. -/
def Metric.name : Metric → String
  | .consensus => "consensus"
  | .discrepancy => "discrepancy"
  | .unknown name => name.getD "None"

/-- The metric of a name, which may be missing. -/
def Metric.ofName (name : Option String) : Metric :=
  if name == some Metric.consensus.name then .consensus
  else if name == some Metric.discrepancy.name then .discrepancy
  else .unknown name

/-- One comparison of a first report with a second one. -/
structure Condition where
  side : Side
  threshold : Float
  metric : Metric
  relation : Relation
  deriving Repr

/-- Why a condition cannot be judged. -/
inductive ConditionError
  | unknownMetric (name : Option String)
  | emptySelection
  deriving Repr, DecidableEq

/-- The text of a condition error. -/
def ConditionError.message : ConditionError → String
  | .unknownMetric name => "Unsupported metric: " ++ (name.map Text.quote).getD "None"
  | .emptySelection => "division by zero"

/-- The values of a metric, one for each result. -/
def Report.metric (report : Report) : Metric → Except ConditionError (List Float)
  | .consensus => .ok (report.results.map (·.consensusProbability))
  | .discrepancy => .ok (report.results.map (·.meanDiscrepancy))
  | .unknown name => .error (.unknownMetric name)

namespace Condition

/-- Whether a condition is about a delivery probability. -/
def selects (condition : Condition) (p : Float) : Bool :=
  match condition.side with
  | .above => condition.threshold < p
  | .below => p < condition.threshold

/-- The values whose probability, at the same place of the grid, is
selected. -/
def selected (condition : Condition) (ps values : List Float) : List Float :=
  ((values.zip ps).filter fun (_, p) => condition.selects p).map (·.1)

/-- The selection in words. -/
def selectionText (condition : Condition) : String :=
  "p " ++ condition.side.sign ++ " " ++ Decimal.realText condition.threshold

end Condition

/-- The mean of values of which there is at least one. -/
def meanOf (values : List Float) : Except ConditionError Float :=
  if values.isEmpty then .error .emptySelection else .ok (Scalar.mean values)

/-- What became of conditions: there were none; all hold; one selects no
probability; or one fails, with the two means that it compared. -/
inductive Verdict
  | vacuous
  | passed (conditions : List Condition)
  | unmatched (condition : Condition)
  | failed (condition : Condition) (first second : Float)
  deriving Repr

/-- Whether a verdict counts as success. -/
def Verdict.holds : Verdict → Bool
  | .vacuous => true
  | .passed _ => true
  | .unmatched _ => false
  | .failed _ _ _ => false

/-- Judge conditions on two reports, `passed` being those that have been found
to hold.  The probabilities are those of the first report. -/
def judgeFrom (first second : Report) (passed : List Condition) :
    List Condition → Except ConditionError Verdict
  | [] => .ok (.passed passed)
  | condition :: rest =>
      if !first.ps.any condition.selects then .ok (.unmatched condition)
      else do
        let firstValues ← first.metric condition.metric
        let secondValues ← second.metric condition.metric
        let firstMean ← meanOf (condition.selected first.ps firstValues)
        let secondMean ← meanOf (condition.selected first.ps secondValues)
        if condition.relation.holds firstMean secondMean then
          judgeFrom first second (passed ++ [condition]) rest
        else return .failed condition firstMean secondMean

/-- Judge conditions on two reports. -/
def judge (first second : Report) (conditions : List Condition) :
    Except ConditionError Verdict :=
  if conditions.isEmpty then .ok .vacuous else judgeFrom first second [] conditions

/-- A condition that holds, in words. -/
def Condition.passedText (condition : Condition) (first second : String) : String :=
  "Comparison passed: " ++ first ++ "." ++ condition.metric.name ++ " " ++
    condition.relation.sign ++ " " ++ second ++ "." ++ condition.metric.name ++ " for " ++
    condition.selectionText

/-- A verdict in words, given the names of the two reports. -/
def Verdict.text (first second : String) : Verdict → String
  | .vacuous => "No conditions provided; nothing to compare."
  | .passed conditions =>
      "\n".intercalate (conditions.map fun condition => condition.passedText first second)
  | .unmatched condition => "No p values satisfy condition '" ++ condition.selectionText ++ "'."
  | .failed condition firstMean secondMean =>
      "\n".intercalate [
        "Comparison failed",
        "",
        "Condition: " ++ condition.selectionText,
        "Metric: " ++ condition.metric.name,
        first ++ " mean = " ++ Decimal.realText firstMean,
        second ++ " mean = " ++ Decimal.realText secondMean,
        "Expected: " ++ first ++ " " ++ condition.relation.sign ++ " " ++ second]

end LossyConsensus.Study
