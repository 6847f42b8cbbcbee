/-
# Failures

Everything that can go wrong, with the category under which it is reported.  A
caller who does not ask for details sees every failure as a protocol failure
with the same text.
-/

import LossyConsensus.Analysis.Fault
import LossyConsensus.Figure.Plot
import LossyConsensus.Sampling.Sweep
import LossyConsensus.Source.Conditions
import LossyConsensus.Trace.Digest

namespace LossyConsensus

/-- The categories of failures. -/
inductive Category
  | parse | evaluation | protocol | value | index | assertion | overflow | division
  deriving Repr, DecidableEq

/-- The word that names a category. -/
def Category.word : Category → String
  | .parse => "ParseError"
  | .evaluation => "EvaluationError"
  | .protocol => "ProtocolError"
  | .value => "ValueError"
  | .index => "IndexError"
  | .assertion => "AssertionError"
  | .overflow => "OverflowError"
  | .division => "ZeroDivisionError"

/-- What went wrong.  `incomparable` reports differ in their grids, `unmet`
conditions do not hold for the reports of the given names, and a `wrapped`
failure is one whose details are kept from the caller. -/
inductive Failure
  | source (error : Source.ParseError)
  | conditions (error : Source.ConditionParseError)
  | declaration (error : Protocol.DeclarationError)
  | phase (error : Protocol.PhaseError)
  | topology (error : Network.TopologyError Value)
  | fault (error : Network.FaultError Value)
  | model (error : Network.ModelError)
  | seed (error : Random.SeedError)
  | bind (error : Simulation.BindError Value)
  | evaluation (error : Protocol.EvalError)
  | run (error : Simulation.RunError Value)
  | config (error : Sampling.ConfigError Value)
  | trial (error : Sampling.TrialError Value)
  | lengths (error : Sampling.LengthMismatch)
  | domain (error : Statistics.DomainError)
  | trace (error : Trace.TraceError)
  | analysis (error : Analysis.AnalysisError)
  | view (error : IndexError)
  | count (error : Random.CountError)
  | report (error : Study.ReportError)
  | condition (error : Study.ConditionError)
  | figure (error : Figure.FigureError)
  | incomparable
  | unmet (first second : String) (verdict : Study.Verdict)
  | wrapped (failure : Failure)

namespace Failure

/-- The category of a failed topology. -/
def ofTopology : Network.TopologyError Value → Category
  | .outside _ _ => .index
  | .unusableIndex => .index
  | .largeIndex => .overflow
  | _ => .value

/-- The category of a failed evaluation. -/
def ofEval : Protocol.EvalError → Category
  | .noHalf => .overflow
  | _ => .evaluation

/-- The category of a function without a value. -/
def ofDomain : Statistics.DomainError → Category
  | .zeroDivisor => .division
  | .largeInteger => .overflow
  | _ => .value

/-- The category of a failed run. -/
def ofRun : Simulation.RunError Value → Category
  | .evaluation error => ofEval error
  | .topology error => ofTopology error
  | _ => .value

/-- The category of a failure. -/
def category : Failure → Category
  | .source (.refused _ _) => .parse
  | .conditions _ => .parse
  | .topology error => ofTopology error
  | .bind (.leader .infinite) => .overflow
  | .evaluation error => ofEval error
  | .run error => ofRun error
  | .trial (.run error) => ofRun error
  | .trial (.lengths _) => .assertion
  | .lengths _ => .assertion
  | .domain error => ofDomain error
  | .trace .missingValue => .index
  | .trace (.rate _) => .overflow
  | .view _ => .index
  | .analysis (.index _) => .index
  | .analysis (.domain error) => ofDomain error
  | .report (.index _) => .index
  | .condition .emptySelection => .division
  | .figure (.label _) => .index
  | .figure (.domain error) => ofDomain error
  | .incomparable => .protocol
  | .unmet _ _ _ => .protocol
  | .wrapped _ => .protocol
  | _ => .value

/-- The text of a failure. -/
def message : Failure → String
  | .source error => error.message
  | .conditions error => error.message
  | .declaration error => error.message
  | .phase error => error.message
  | .topology error => error.message
  | .fault error => error.message
  | .model error => error.message
  | .seed error => error.message
  | .bind error => error.message
  | .evaluation error => error.message
  | .run error => error.message
  | .config error => error.message
  | .trial error => error.message
  | .lengths error => error.message
  | .domain error => error.message
  | .trace error => error.message
  | .analysis error => error.message
  | .view error => error.message "tuple"
  | .count error => error.message
  | .report error => error.message
  | .condition error => error.message
  | .figure error => error.message
  | .incomparable => "Comparison inputs have incompatible p grids."
  | .unmet first second verdict => verdict.text first second
  | .wrapped failure => failure.message

/-- The failure that stops a sweep. -/
def ofPoint : Sampling.PointError Value → Failure
  | .bind error => .bind error
  | .trial error => .trial error

end Failure

end LossyConsensus
