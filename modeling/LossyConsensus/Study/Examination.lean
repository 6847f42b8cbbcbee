/-
# Examinations

An examination reads a protocol, samples it according to a plan and gives a
report.  It also gives the events on the way and the traced runs, whether or
not it succeeds.
-/

import LossyConsensus.Journal.Event
import LossyConsensus.Protocol.Map
import LossyConsensus.Source.Protocol
import LossyConsensus.Study.Plan

namespace LossyConsensus.Study

open LossyConsensus.Journal LossyConsensus.Sampling

/-- What is examined: the text of a protocol, or a report already there. -/
inductive Subject
  | text (source : String)
  | report (report : Report)

/-- The outcome of an examination, with its events and its traced runs. -/
structure Examination (α : Type) where
  outcome : Except Failure α
  events : List Event := []
  traced : List (TracedRun Value) := []

namespace Examination

variable {α β : Type}

/-- Go on from the outcome of an examination, if it has succeeded. -/
def andThen (first : Examination α) (next : α → Examination β) : Examination β :=
  match first.outcome with
  | .error failure => { outcome := .error failure, events := first.events, traced := first.traced }
  | .ok value =>
      let second := next value
      { outcome := second.outcome
        events := first.events ++ second.events
        traced := first.traced ++ second.traced }

/-- Wrap the failure of an examination, unless details are asked for or it is a
protocol failure already. -/
def shielded (details : Bool) (examination : Examination α) : Examination α :=
  match examination.outcome with
  | .ok _ => examination
  | .error failure =>
      if details || failure.category == .protocol then examination
      else { examination with
        outcome := .error (.wrapped failure)
        events := examination.events ++ [.wrapped failure] }

/-- The warnings of an examination, in order. -/
def warnings (examination : Examination α) : List String :=
  examination.events.filterMap Event.warning?

end Examination

/-- The events of a finished point, the records of its traced runs at the given
level or not at all. -/
def pointEvents (level : Option Level) (protocol : String) (rounds : Int)
    (point : Point Value) : List Event :=
  let records := point.trial.traced.flatMap (·.records)
  [.pointStarted protocol point.p.real rounds point.seed] ++
    point.trial.shortfall.toList.map Event.shortfall ++
    (level.toList.flatMap fun level =>
      records.map fun record => Event.record level (record.map Value.real)) ++
    [.pointFinished protocol (point.trial.result.map Value.real)]

/-- The events of the point at which a sweep stopped: it began if the protocol
could be bound. -/
def stopEvents (protocol : String) (rounds : Int) :
    Option (Value × Int × PointError Value) → List Event
  | some (p, seed, .trial _) => [.pointStarted protocol p.real rounds seed]
  | _ => []

/-- The events of a sweep. -/
def sweepEvents (level : Option Level) (protocol : String) (rounds : Int)
    (sweep : Sweep Value) : List Event :=
  sweep.points.flatMap (pointEvents level protocol rounds) ++
    stopEvents protocol rounds sweep.stopped

/-- Sample a protocol according to a plan. -/
def sampleProtocol (plan : Plan) (level : Option Level) (protocol : Protocol Float) :
    Examination Report :=
  let parsed : List Event := [.parsed protocol]
  match plan.config.check with
  | .error error => { outcome := .error (.config error), events := parsed }
  | .ok config =>
      let sweep := sweep (protocol.map Value.ofReal) (plan.settings config)
        (plan.ps.map Value.ofReal)
      let started := Event.started protocol.name plan.ps.length plan.rounds plan.seed
      { outcome := (sweep.results.mapError Failure.ofPoint).map fun results => {
          name := protocol.name
          processes := protocol.processes
          rounds := plan.rounds
          repetitions := plan.repetitions
          ps := plan.ps
          tolerance := plan.tolerance
          results := results.map (Result.map Value.real) }
        events := parsed ++ [started] ++ sweepEvents level protocol.name plan.rounds sweep
        traced := sweep.traced }

/-- Examine a subject.  A report is given back as it is; failures are wrapped
unless details are asked for. -/
def examine (plan : Plan) (level : Option Level) (details : Bool) :
    Subject → Examination Report
  | .report report => { outcome := .ok report }
  | .text source =>
      Examination.shielded details <|
        match Source.readProtocol source with
        | .error error => { outcome := .error (.source error) }
        | .ok protocol => sampleProtocol plan level protocol

end LossyConsensus.Study
