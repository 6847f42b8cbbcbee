/-
# Failed analyses

Why an analysis has no answer.
-/

import LossyConsensus.Analysis.Energy
import LossyConsensus.Analysis.Tail
import LossyConsensus.Analysis.Transition
import LossyConsensus.Decimal.Shortest

namespace LossyConsensus.Analysis

open LossyConsensus.Statistics

/-- Why an analysis has no answer. -/
inductive AnalysisError
  | domain (error : DomainError)
  | confidence (error : ConfidenceError Float)
  | lengths (error : LengthError)
  | index (error : IndexError)
  deriving Repr

/-- The text of an analysis error. -/
def AnalysisError.message : AnalysisError → String
  | .domain error => error.message
  | .confidence error =>
      "confidence must be in (0, 1), got " ++ Decimal.realText error.confidence
  | .lengths error =>
      "p_values and convergence_times differ in length: " ++ toString error.first ++ " != " ++
        toString error.second
  | .index error => error.message "list"

end LossyConsensus.Analysis
