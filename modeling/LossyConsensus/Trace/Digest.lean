/-
# Digests of traced runs

A summary of the records of one run, and a report of what looks wrong in them.
-/

import LossyConsensus.Decimal.Places
import LossyConsensus.Decimal.Quotient
import LossyConsensus.Slice
import LossyConsensus.Trace.Record

namespace LossyConsensus.Trace

open LossyConsensus.Simulation

/-- Why records cannot be digested. -/
inductive TraceError
  | noRecord
  | missingValue
  | format (word : String)
  | rate (error : Decimal.QuotientError)
  deriving Repr, DecidableEq

/-- The text of a trace error. -/
def TraceError.message : TraceError → String
  | .noRecord => "trace_summary needs at least one round record"
  | .missingValue => IndexError.outside.message "tuple"
  | .format word => "Unknown export format: " ++ Text.quote word ++ "; use 'json' or 'csv'"
  | .rate error => error.message

/-- A high-level view of a traced run.  The messages possible are those of the
full flood, before topology and faults. -/
structure Digest (R : Type) where
  processes : Nat
  rounds : Nat
  hasEnd : Bool
  delivered : Int
  possible : Int
  initial : R
  final : R
  consensusRound : Option Int
  deriving Repr, DecidableEq

variable {R : Type} [Scalar R]

/-- The digest of the records of one run. -/
def digest (records : List (Record R)) : Except TraceError (Digest R) :=
  match records with
  | [] => .error .noRecord
  | first :: rest =>
      let last := (first :: rest).getLast (by simp)
      let rounds := records.filter fun record => !record.isEnd
      let n := first.before.length
      .ok {
        processes := n
        rounds := rounds.length
        hasEnd := rounds.length != records.length
        delivered := (rounds.map (·.delivered)).foldl (· + ·) 0
        possible := rounds.length * n * (n - 1 : Int)
        initial := Simulation.discrepancy first.before
        final := last.discrepancy
        consensusRound := (rounds.find? (·.consensus)).map (·.round) }

namespace Digest

/-- The fraction of the possible messages that were delivered; no number when
none were possible. -/
def rate (digest : Digest R) : Except TraceError Float :=
  if digest.possible == 0 then .ok (0.0 / 0.0)
  else (Decimal.integerQuotient digest.delivered digest.possible).mapError .rate

/-- A rate in percent, with one decimal place. -/
def percent (rate : Float) : String :=
  Decimal.fixed 1 (100.0 * rate) ++ "%"

/-- The digest in words. -/
def text (digest : Digest Float) : Except TraceError String := do
  let rate ← digest.rate
  let reached := match digest.consensusRound with
    | some round => "round " ++ toString round
    | none => "no"
  return "\n".intercalate [
    "Processes: " ++ toString digest.processes,
    "Rounds executed: " ++ toString digest.rounds ++
      (if digest.hasEnd then " (+ END phase)" else ""),
    "Messages: " ++ toString digest.delivered ++ " of " ++ toString digest.possible ++
      " delivered (" ++ percent rate ++ ")",
    "Initial discrepancy: " ++ Decimal.fixed 6 digest.initial,
    "Final discrepancy: " ++ Decimal.fixed 6 digest.final,
    "Consensus reached: " ++ reached]

end Digest

/-- Something in a traced run that may need attention. -/
inductive Anomaly
  | nothingReceived (process : Nat)
  | discrepancyRise (round : Int)
  | lowRate (percent : String)
  | neverUpdated (process : Nat)
  deriving Repr, DecidableEq

/-- The text of an anomaly. -/
def Anomaly.message : Anomaly → String
  | .nothingReceived process => "Process " ++ toString process ++ " never received any messages"
  | .discrepancyRise round => "Discrepancy increased at round " ++ toString round
  | .lowRate percent => "Low delivery rate: " ++ percent
  | .neverUpdated process => "Process " ++ toString process ++ " never updated its state"

/-- How much the discrepancy may grow from one record to the next. -/
def riseFactor : Float := 1.01

/-- The delivery rate below which a run is reported. -/
def lowRate : Float := 0.5

/-- Whether some record holds a message to a process. -/
def receivesAny (records : List (Record R)) (process : Nat) : Bool :=
  records.any fun record => !((record.inboxes.lookup (process : Int)).getD []).isEmpty

/-- Whether no record changes the value of a process.  Records are asked in
turn until one does. -/
def neverUpdates (process : Nat) : List (Record R) → Except TraceError Bool
  | [] => .ok true
  | record :: rest =>
      match record.after[process - 1]?, record.before[process - 1]? with
      | some after, some before =>
          if Scalar.eq after before then neverUpdates process rest else .ok false
      | _, _ => .error .missingValue

/-- The records whose discrepancy rises by more than the factor over the record
before them. -/
def rises (records : List (Record Float)) : List (Record Float) :=
  ((records.zip (records.drop 1)).filter fun (previous, current) =>
    previous.discrepancy * riseFactor < current.discrepancy).map (·.2)

/-- Report processes that receive nothing, rounds in which the discrepancy
rises, a low delivery rate, and processes whose value never changes.  The last
are reported only when the run does not start in consensus. -/
def anomalies (records : List (Record Float)) : Except TraceError (List Anomaly) :=
  match records with
  | [] => .ok []
  | first :: _ => do
      let processes := (List.range first.before.length).map (· + 1)
      let rounds := records.filter fun record => !record.isEnd
      let silent := (processes.filter fun id => !receivesAny rounds id).map
        Anomaly.nothingReceived
      let rising := (rises records).map fun record => Anomaly.discrepancyRise record.round
      let digest ← digest records
      let rate ← digest.rate
      let slow := if rate < lowRate then [Anomaly.lowRate (Digest.percent rate)] else []
      let fixed ← if 0.0 < digest.initial then
          processes.filterM fun id => neverUpdates id records
        else pure []
      return silent ++ rising ++ slow ++ fixed.map Anomaly.neverUpdated

end LossyConsensus.Trace
