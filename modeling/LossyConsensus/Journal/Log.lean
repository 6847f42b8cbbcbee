/-
# Logs

A log is asked for by the name of its lowest level and by a format.  Level
names may be written in any case.
-/

import LossyConsensus.Journal.Event

namespace LossyConsensus.Journal

/-- Why a log cannot be kept as asked. -/
inductive LogError
  | format (word : Option String)
  | level (word : String)
  deriving Repr, DecidableEq

/-- The text of a log error. -/
def LogError.message : LogError → String
  | .format word => "format must be one of ('console', 'json'), got " ++
      match word with
      | some word => Text.quote word
      | none => "None"
  | .level word => "Unknown log level: " ++ Text.quote word

/-- The names of levels with the ranks from which on they keep events. -/
def thresholds : List (String × Nat) :=
  [("CRITICAL", 50), ("FATAL", 50), ("ERROR", 40), ("WARN", 30), ("WARNING", 30), ("INFO", 20),
    ("DEBUG", 10), ("NOTSET", 0)]

/-- A character as a capital, as far as ASCII letters are concerned; these are
also the capitals of the dotless i and the long s. -/
def capital (c : Char) : Char :=
  if c.toNat == 0x131 then 'I' else if c.toNat == 0x17f then 'S' else c.toUpper

/-- A log that keeps events of a rank. -/
structure Log where
  threshold : Nat
  deriving Repr, DecidableEq

namespace Log

/-- The log asked for by the name of a level and a format, which must be
given. -/
def ofNames (level : String) (format : Option String) : Except LogError Log :=
  if format != some "console" && format != some "json" then .error (.format format)
  else match thresholds.lookup (level.map capital) with
    | some threshold => .ok { threshold }
    | none => .error (.level level)

/-- The entries of the events that a log keeps. -/
def entries (log : Log) (events : List Event) : List Entry :=
  (events.map Event.entry).filter fun entry => log.threshold ≤ entry.level.rank

end Log

end LossyConsensus.Journal
