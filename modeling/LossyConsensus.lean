import LossyConsensus.Journal.Log
import LossyConsensus.Study.Comparison
import LossyConsensus.Proofs.Except
import LossyConsensus.Proofs.Network.Delivery
import LossyConsensus.Proofs.Network.Flood
import LossyConsensus.Proofs.Network.Inbox
import LossyConsensus.Proofs.Network.Fault
import LossyConsensus.Proofs.Simulation.Round
import LossyConsensus.Proofs.Simulation.Run
import LossyConsensus.Proofs.Protocol.Scope
import LossyConsensus.Proofs.Source.Scope
import LossyConsensus.Proofs.Protocol.Settings
import LossyConsensus.Proofs.Source.Protocol
import LossyConsensus.Proofs.Simulation.Evaluation
import LossyConsensus.Proofs.Network.Demand
import LossyConsensus.Proofs.Sampling.Scan
import LossyConsensus.Proofs.Sampling.Trial
import LossyConsensus.Proofs.Text.Blank
import LossyConsensus.Proofs.Text.Nesting
import LossyConsensus.Proofs.Text.Bracket
import LossyConsensus.Proofs.Decimal.Numeral
import LossyConsensus.Proofs.Source.Grammar
import LossyConsensus.Proofs.Source.Placement
import LossyConsensus.Proofs.Source.Word
import LossyConsensus.Proofs.Source.Sender
import LossyConsensus.Proofs.Source.Operand
import LossyConsensus.Proofs.Source.Expr
import LossyConsensus.Proofs.Scalar.Law
import LossyConsensus.Proofs.Scalar.Rounding
import LossyConsensus.Proofs.Scalar.Double
import LossyConsensus.Proofs.Network.Slot
import LossyConsensus.Proofs.Simulation.Coupling
import LossyConsensus.Proofs.Sampling.Batch
import LossyConsensus.Proofs.Sampling.Growth
import LossyConsensus.Proofs.Network.Distance
import LossyConsensus.Proofs.Network.Search
import LossyConsensus.Proofs.Network.Adjacency
import LossyConsensus.Proofs.Network.Topology
import LossyConsensus.Proofs.Random.Generator
import LossyConsensus.Proofs.Protocol.Extreme
import LossyConsensus.Proofs.Network.Certain
import LossyConsensus.Proofs.Simulation.Flooding
import LossyConsensus.Proofs.Simulation.Diameter
import LossyConsensus.Proofs.Source.Block
import LossyConsensus.Proofs.Source.Numbering
import LossyConsensus.Proofs.Source.Header
import LossyConsensus.Proofs.Source.Outline
import LossyConsensus.Proofs.Source.Rearrangement
import LossyConsensus.Proofs.Source.Layout
import LossyConsensus.Proofs.Source.Edit
import LossyConsensus.Proofs.Text.Passage
import LossyConsensus.Proofs.Source.Writing
import LossyConsensus.Proofs.Source.WrittenExpr
import LossyConsensus.Proofs.Source.Fragment
import LossyConsensus.Proofs.Source.WrittenPredicate
import LossyConsensus.Proofs.Source.WrittenRule
import LossyConsensus.Proofs.Source.WrittenPhases
import LossyConsensus.Proofs.Source.RoundTrip
import LossyConsensus.Proofs.Sampling.Parallel
import LossyConsensus.Proofs.Text.Part
import LossyConsensus.Proofs.Source.Conversion
import LossyConsensus.Proofs.Source.Reserved
import LossyConsensus.Proofs.Source.Fault
import LossyConsensus.Proofs.Source.BlockWord
import LossyConsensus.Proofs.Source.Opening
import LossyConsensus.Proofs.Source.BlockLayout
import LossyConsensus.Proofs.Network.Likeness
import LossyConsensus.Proofs.Simulation.Step
import LossyConsensus.Proofs.Simulation.Isolation
import LossyConsensus.Proofs.Protocol.Blend
import LossyConsensus.Proofs.Simulation.Blend
import LossyConsensus.Proofs.Simulation.Selection
import LossyConsensus.Proofs.Scalar.Exact
import LossyConsensus.Proofs.Simulation.Contraction
import LossyConsensus.Proofs.Network.Enumeration
import LossyConsensus.Proofs.Simulation.Pattern
import LossyConsensus.Proofs.Simulation.Meeting
import LossyConsensus.Proofs.Simulation.Gain
import LossyConsensus.Proofs.Statistics.Pairwise
import LossyConsensus.Proofs.Sampling.Gain
import LossyConsensus.Proofs.Simulation.Summary
import LossyConsensus.Proofs.Sampling.Shape
import LossyConsensus.Proofs.Simulation.Visit
import LossyConsensus.Proofs.Trace.Record
import LossyConsensus.Proofs.Simulation.Guarantee
import LossyConsensus.Proofs.Simulation.Agreement
import LossyConsensus.Proofs.Study.Alignment
import LossyConsensus.Proofs.Source.ModelOption
import LossyConsensus.Proofs.Source.Model
import LossyConsensus.Proofs.Source.PredicateGrammar
import LossyConsensus.Proofs.Source.PredicateScan
import LossyConsensus.Proofs.Source.PredicatePlacement
import LossyConsensus.Proofs.Source.PredicateAtom
import LossyConsensus.Proofs.Source.Predicate
import LossyConsensus.Proofs.Source.Condition
import LossyConsensus.Proofs.Network.Composite
import LossyConsensus.Proofs.Sampling.Traced
import LossyConsensus.Proofs.Source.Clause
import LossyConsensus.Proofs.Source.Mirror
import LossyConsensus.Proofs.Source.Verdict
import LossyConsensus.Proofs.Decimal.Quotient
import LossyConsensus.Proofs.Network.Circulant
import LossyConsensus.Proofs.Network.Queue
import LossyConsensus.Proofs.Network.Diameter
import LossyConsensus.Proofs.Trace.Rise
import LossyConsensus.Proofs.Network.TopUp
import LossyConsensus.Proofs.Protocol.Reception
import LossyConsensus.Proofs.Simulation.Reception
import LossyConsensus.Proofs.Network.Contents
import LossyConsensus.Proofs.Protocol.Shuffle
import LossyConsensus.Proofs.Simulation.Shuffle
import LossyConsensus.Proofs.Simulation.Extension
import LossyConsensus.Proofs.Trace.Filter
import LossyConsensus.Proofs.Analysis.Tail
import LossyConsensus.Proofs.Network.Conservation
import LossyConsensus.Proofs.Network.Neighborhood
