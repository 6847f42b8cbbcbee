/-
# Lines and section headers

A protocol text is read by its lines; blank lines and lines that start with a
number sign are passed over.  A section opens with its name and an optional
colon; its content may begin after the colon and runs up to the next header.
-/

import LossyConsensus.Source.Phases

namespace LossyConsensus.Source

open LossyConsensus.Text

/-- The lines of a text that hold something, trimmed and with their numbers. -/
def contentLines (text : List Char) : List Line :=
  ((numberedLines text).map fun (number, line) => (number, trim line)).filter fun (_, line) =>
    !line.isEmpty && line.head? != some '#'

/-- The sections that follow the name of a protocol. -/
inductive Section
  | processes | nodes | state | parameters | initialValues | initial | channel | roles | model
  | updateRule | metrics
  deriving Repr, DecidableEq

/-- The name of a section. -/
def Section.word : Section → String
  | .processes => "PROCESSES"
  | .nodes => "NODES"
  | .state => "STATE"
  | .parameters => "PARAMETERS"
  | .initialValues => "INITIAL VALUES"
  | .initial => "INITIAL"
  | .channel => "CHANNEL"
  | .roles => "ROLES"
  | .model => "MODEL"
  | .updateRule => "UPDATE RULE"
  | .metrics => "METRICS"

/-- All sections, a longer name before the shorter one that begins it. -/
def Section.all : List Section :=
  [.processes, .nodes, .state, .parameters, .initialValues, .initial, .channel, .roles, .model,
    .updateRule, .metrics]

/-- The content of a line that is the header of the given section. -/
def Section.inline? (kind : Section) (text : List Char) : Option (List Char) := do
  match trimLeft (← after? kind.word.toList text) with
  | [] => some []
  | ':' :: rest => some (trim rest)
  | _ => none

/-- The section that a line opens, with the content that follows the colon. -/
def header? (text : List Char) : Option (Section × List Char) :=
  Section.all.findSome? fun kind => (kind.inline? text).map fun inline => (kind, inline)

/-- Whether a line opens a section. -/
def isHeader (line : Line) : Bool :=
  (header? line.2).isSome

/-- A section as it stands in a text: which one, the line of its header, its
lines of content, and the lines after it. -/
structure Part where
  kind : Section
  line : Nat
  body : List Line
  rest : List Line

/-- The section at the front of the lines, if it is one of those expected. -/
def part? (expected : List Section) (lines : List Line) : Option Part :=
  match lines with
  | [] => none
  | (number, text) :: rest =>
      match header? text with
      | none => none
      | some (kind, inline) =>
          if expected.contains kind then
            some {
              kind
              line := number
              body := (if inline.isEmpty then [] else [(number, inline)]) ++
                rest.takeWhile fun line => !isHeader line
              rest := rest.dropWhile fun line => !isHeader line }
          else none

theorem length_part? {expected : List Section} {lines : List Line} {part : Part}
    (h : part? expected lines = some part) : part.rest.length < lines.length := by
  cases lines with
  | nil => simp [part?] at h
  | cons line rest =>
    obtain ⟨number, text⟩ := line
    simp only [part?] at h
    split at h
    · simp at h
    · split at h
      · obtain rfl := by simpa using h
        have := (List.dropWhile_sublist (p := fun line => !isHeader line) (l := rest)).length_le
        simp only [List.length_cons]
        omega
      · simp at h

/-- The line that an error about the front of the lines belongs to: the first
of them, or the last line of the text when none is left. -/
def frontLine (last : Nat) (lines : List Line) : Nat :=
  match lines with
  | (number, _) :: _ => number
  | [] => last

/-- The text of the first of the lines. -/
def frontText? (lines : List Line) : Option String :=
  lines.head?.map fun (_, text) => String.ofList text

end LossyConsensus.Source
