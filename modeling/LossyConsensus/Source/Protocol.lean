/-
# Reading protocols

A protocol text holds, in this order: its name; the number of processes; the
state variable; parameters and initial values in any order; the channel and the
roles in either order; the delivery models; the update rule; the metrics.  The
sections from the channel on may be absent.
-/

import LossyConsensus.Source.Sections

namespace LossyConsensus.Source

open LossyConsensus.Protocol LossyConsensus.Text

/-- The name of a protocol, on its first line. -/
def readName (line : Line) : Except ParseError String :=
  let (number, text) := line
  match (after? "PROTOCOL".toList text).bind blanks? with
  | some name =>
      if !name.isEmpty && name.all fun c => !isBlank c then .ok (String.ofList name)
      else refuse number (.expectedName (String.ofList text))
  | none => refuse number (.expectedName (String.ofList text))

/-- The digits of the number that a PROCESSES line gives. -/
def processCount? (text : List Char) : Option (List Char) := do
  let rest ← after? "PROCESSES".toList text <|> after? "NODES".toList text
  digitsAtEnd? (← after? ":".toList (trimLeft rest))

/-- The number of processes and the lines after it. -/
def readProcesses (last : Nat) (lines : List Line) : Except ParseError (Nat × List Line) :=
  match lines with
  | [] => refuse last (.expectedProcesses none)
  | (number, text) :: rest =>
      match processCount? text with
      | none => refuse number (.expectedProcesses (some (String.ofList text)))
      | some digits => do
          let count ← (readNumber digits).mapError .unconvertible
          if count < 1 then refuse number .noProcesses else .ok (count, rest)

/-- The state variable, its domain, and the lines after them. -/
def readStateSection (last : Nat) (lines : List Line) :
    Except ParseError ((String × Option String) × List Line) :=
  match part? [.state] lines with
  | none => refuse (frontLine last lines) (.expectedSection "STATE:" (frontText? lines))
  | some part =>
      match part.body with
      | [(number, text)] =>
          match readState? text with
          | some state => .ok (state, part.rest)
          | none => refuse number (.malformedState (String.ofList text))
      | _ => refuse part.line .stateCount

/-- What the parameters and the initial sections have given so far, and which
of them have been read. -/
structure Opening where
  settings : Settings Float := []
  values : Option (List Float) := none
  rule : Option (Nat × Expr Float) := none
  seen : List Section := []

/-- Read one of the sections that open a protocol. -/
def Opening.read (opening : Opening) (v : Vocabulary) (processes : Nat) (part : Part) :
    Except ParseError Opening := do
  if opening.seen.contains part.kind then
    refuse part.line (.duplicateSection part.kind.word)
  if part.kind != .parameters && opening.seen.any (· != .parameters) then
    refuse part.line .twoInitials
  let opening := { opening with seen := part.kind :: opening.seen }
  match part.kind with
  | .parameters =>
      let settings ← part.body.foldlM (fun settings line => do
        let (name, value) ← readParameter line
        return Settings.set settings name (.real value)) opening.settings
      return { opening with settings }
  | .initialValues =>
      let values ← readValues processes part.line part.body
      return { opening with values := some values }
  | _ =>
      let rule ← readInitialRule v part.line part.body
      return { opening with rule := some rule }

/-- Read the sections that open a protocol, as long as there are any. -/
def readOpening (v : Vocabulary) (processes : Nat) (opening : Opening) (lines : List Line) :
    Except ParseError (Opening × List Line) :=
  match _h : part? [.parameters, .initialValues, .initial] lines with
  | none => .ok (opening, lines)
  | some part => do
      let opening ← opening.read v processes part
      readOpening v processes opening part.rest
termination_by lines.length
decreasing_by exact length_part? _h

/-- Initial values must be given, and an initial rule may use the declared
names and the number of the process.  The parameters may follow the rule, so
the names are compared when both have been read. -/
def Opening.check (opening : Opening) (last : Nat) (lines : List Line) :
    Except ParseError Unit :=
  match opening.values, opening.rule with
  | none, none => refuse (frontLine last lines) (.expectedInitial (frontText? lines))
  | _, some (number, rule) =>
      match initialFault? ("i" :: Settings.declared opening.settings) rule with
      | some fault => refuse number fault
      | none => .ok ()
  | _, none => .ok ()

/-- Read one of the sections on the channel and the roles into the settings. -/
def readChannelPart (processes : Nat) (settings : Settings Float) (part : Part) :
    Except ParseError (Settings Float) :=
  match part.body with
  | [] => refuse part.line (.emptySection part.kind.word)
  | line :: others => do
      let settings ← match part.kind with
        | .channel => do
            let guarantee ← readChannel processes line
            pure (Settings.set settings Settings.guaranteeName (.guarantee guarantee))
        | _ => do
            let leader ← readLeader processes line
            pure (Settings.set settings Settings.leaderName (.process leader))
      match others with
      | [] => return settings
      | (number, text) :: _ =>
          refuse number (.extraContent (String.ofList text) part.kind.word)

/-- Read the sections on the channel and the roles, each at most once. -/
def readChannelParts (processes : Nat) (seen : List Section) (settings : Settings Float)
    (lines : List Line) : Except ParseError (Settings Float × List Line) :=
  match _h : part? [.channel, .roles] lines with
  | none => .ok (settings, lines)
  | some part => do
      if seen.contains part.kind then
        refuse part.line (.duplicateSection part.kind.word)
      let settings ← readChannelPart processes settings part
      readChannelParts processes (part.kind :: seen) settings part.rest
termination_by lines.length
decreasing_by exact length_part? _h

/-- Read an optional section: its content by `read`, or the default when it is
absent. -/
def readOptional {α : Type} (kind : Section) (absent : α)
    (read : List Line → Except ParseError α) (lines : List Line) :
    Except ParseError (α × List Line) :=
  match part? [kind] lines with
  | none => .ok (absent, lines)
  | some part => do
      let content ← read part.body
      return (content, part.rest)

/-- The settings with a channel guarantee, which is none unless given. -/
def withGuarantee (settings : Settings Float) : Settings Float :=
  match Settings.get? settings Settings.guaranteeName with
  | some _ => settings
  | none => Settings.set settings Settings.guaranteeName (.guarantee .none)

/-- The delivery models of a protocol that declares the given ones. -/
def modelsOrStandard (models : List ModelSpec) : List ModelSpec :=
  if models.isEmpty then [{ kind := .standard }] else models

/-- Read a protocol from its lines of content. -/
def readLines (first : Line) (lines : List Line) : Except ParseError (Protocol Float) := do
  let last := ((first :: lines).getLast?.getD first).1
  let name ← readName first
  let (processes, lines) ← readProcesses last lines
  let ((stateVar, domain), lines) ← readStateSection last lines
  let vocabulary : Vocabulary := { stateVar, processes := some (processes : Int) }
  let (opening, lines) ← readOpening vocabulary processes {} lines
  opening.check last lines
  let (settings, lines) ← readChannelParts processes [] opening.settings lines
  let (models, lines) ← readOptional .model [] (readModels processes []) lines
  let rules : Vocabulary := { vocabulary with declared := some (Settings.declared settings) }
  let (phases, lines) ← readOptional .updateRule [] (readPhases rules false) lines
  let (metrics, lines) ← readOptional .metrics .both readMetrics lines
  match lines with
  | (number, text) :: _ => refuse number (.unexpectedContent (String.ofList text))
  | [] =>
      let declaration : Declaration Float := {
        name
        processes
        values := opening.values
        rule := opening.rule.map (·.2)
        phases
        metrics
        settings := withGuarantee settings
        models := modelsOrStandard models
        stateVar
        domain }
      declaration.check.mapError fun fault => .refused none (.declaration fault)

/-- Read a protocol text. -/
def readProtocol (text : String) : Except ParseError (Protocol Float) :=
  match contentLines text.toList with
  | [] => .error (.refused none .emptyText)
  | first :: lines => readLines first lines

end LossyConsensus.Source
