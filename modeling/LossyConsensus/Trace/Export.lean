/-
# Exported traces

The records of a run as a JSON text with one object a record, or as a table of
comma-separated values with one row a process and round.
-/

import LossyConsensus.Text.Json
import LossyConsensus.Trace.Digest

namespace LossyConsensus.Trace

open LossyConsensus.Text

/-- The members of a record's object, processes by their ids. -/
def Record.members (record : Record Float) : List (String × Json) :=
  [("round", .integer record.round),
    ("end_phase", .bool record.isEnd),
    ("state_before", .list (record.before.map .real)),
    ("inboxes", .object (record.inboxes.map fun (id, inbox) =>
      (toString id, .list (inbox.map fun (sender, value) =>
        .list [.integer sender, .real value])))),
    ("committed", .list (record.after.map .real)),
    ("discrepancy", .real record.discrepancy),
    ("consensus", .bool record.consensus),
    ("diff_flags", .object (record.flags.map fun (id, flag) => (toString id, .bool flag))),
    ("messages_delivered", .integer record.delivered)]

/-- A record as an object. -/
def Record.json (record : Record Float) : Json :=
  .object record.members

/-- The columns of the table. -/
def columns : List String :=
  ["round", "process", "state_before", "committed", "received", "received_diff", "discrepancy",
    "consensus", "end_phase"]

/-- A truth value in the table. -/
def truthText (value : Bool) : String :=
  if value then "True" else "False"

/-- The row of a process in a record. -/
def row (record : Record Float) (process : Nat) : Except TraceError (List String) :=
  match record.before[process - 1]?, record.after[process - 1]? with
  | some before, some after =>
      let id : Int := process
      .ok [
        toString record.round,
        toString process,
        Decimal.realText before,
        Decimal.realText after,
        toString ((record.inboxes.lookup id).getD []).length,
        truthText ((record.flags.lookup id).getD false),
        Decimal.realText record.discrepancy,
        truthText record.consensus,
        truthText record.isEnd]
  | _, _ => .error .missingValue

/-- The rows of a record, one for each process. -/
def rows (record : Record Float) : Except TraceError (List (List String)) :=
  (List.range record.before.length).mapM fun k => row record (k + 1)

/-- A line of the table. -/
def tableLine (cells : List String) : String :=
  ",".intercalate cells ++ "\r\n"

/-- The records as a table under a line of column names. -/
def table (records : List (Record Float)) : Except TraceError String := do
  let cells ← records.mapM rows
  return String.join ((columns :: cells.flatten).map tableLine)

/-- The records in the named format. -/
def exported (format : String) (records : List (Record Float)) : Except TraceError String :=
  if format == "json" then .ok ((Json.list (records.map Record.json)).render 0)
  else if format == "csv" then table records
  else .error (.format format)

end LossyConsensus.Trace
