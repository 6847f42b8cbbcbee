/-
# Events

What is worth telling about while protocols are read and sampled.  Each event
has a level and named fields; a log keeps the events at or above a level.
-/

import LossyConsensus.Failure
import LossyConsensus.Text.Json
import LossyConsensus.Trace.Export

namespace LossyConsensus.Journal

open LossyConsensus.Sampling LossyConsensus.Text

/-- How much attention an event asks for. -/
inductive Level
  | debug | info | warning | error
  deriving Repr, DecidableEq

/-- The word that names a level. -/
def Level.word : Level → String
  | .debug => "debug"
  | .info => "info"
  | .warning => "warning"
  | .error => "error"

/-- The rank of a level among all of them. -/
def Level.rank : Level → Nat
  | .debug => 10
  | .info => 20
  | .warning => 30
  | .error => 40

/-- What happened: a protocol was read; a sweep began; one of its points began,
fell short of valid runs, left a record of a traced run at the level chosen for
records, or was finished; a failure was wrapped. -/
inductive Event
  | parsed (protocol : Protocol Float)
  | started (protocol : String) (points : Nat) (rounds seed : Int)
  | pointStarted (protocol : String) (p : Float) (rounds seed : Int)
  | shortfall (lack : Shortfall Value)
  | record (level : Level) (record : Trace.Record Float)
  | pointFinished (protocol : String) (result : Result Float)
  | wrapped (failure : Failure)

/-- An event as it is logged: its name, its level, the part of the system it
comes from, and its fields. -/
structure Entry where
  name : String
  level : Level
  system : String
  fields : List (String × Json)

namespace Event

/-- An event as it is logged. -/
def entry : Event → Entry
  | .parsed protocol => {
      name := "protocol_parsed"
      level := .debug
      system := "parser"
      fields := [
        ("protocol", .text protocol.name),
        ("num_processes", .integer protocol.processes),
        ("phases", .integer protocol.phases.length)] }
  | .started protocol points rounds seed => {
      name := "protocol_run_started"
      level := .info
      system := "api"
      fields := [
        ("protocol", .text protocol),
        ("n_p", .integer points),
        ("rounds", .integer rounds),
        ("seed", .integer seed)] }
  | .pointStarted protocol p rounds seed => {
      name := "sweep_point_started"
      level := .info
      system := "monte_carlo"
      fields := [
        ("protocol", .text protocol),
        ("p", .real p),
        ("rounds", .integer rounds),
        ("seed", .integer seed)] }
  | .shortfall lack => {
      name := "configuration_warning"
      level := .warning
      system := "errors"
      fields := [
        ("message", .text lack.message),
        ("protocol", .text lack.protocol),
        ("p", .real lack.p.real),
        ("valid", .integer lack.valid),
        ("attempts", .integer lack.attempts)] }
  | .record level seen => {
      name := "round_trace"
      level
      system := "trace"
      fields := seen.members }
  | .pointFinished protocol result => {
      name := "sweep_point_finished"
      level := .info
      system := "monte_carlo"
      fields := [
        ("protocol", .text protocol),
        ("p", .real result.p),
        ("valid", .integer result.repetitions),
        ("attempts", .integer result.attempts),
        ("mean_discrepancy", .real result.meanDiscrepancy),
        ("consensus_probability", .real result.consensusProbability)] }
  | .wrapped failure => {
      name := "wrapped_error"
      level := .debug
      system := "errors"
      fields := [
        ("error_type", .text failure.category.word),
        ("error", .text failure.message)] }

/-- The warning that an event gives to the caller. -/
def warning? : Event → Option String
  | .shortfall lack => some lack.message
  | _ => none

end Event

end LossyConsensus.Journal
