/-
# Protocols

A protocol names its processes' initial values, its phases, the metrics it asks
for, its settings and the delivery models of its channel.  A declaration is
what is written down; it becomes a protocol when its parts fit together.
-/

import LossyConsensus.Protocol.Phase
import LossyConsensus.Scalar

namespace LossyConsensus

namespace Protocol

/-- The initial values of the processes: a list with one value for each, or an
expression in which `i` is the number of the process. -/
inductive Initial (R : Type)
  | values (values : List R)
  | rule (rule : Expr R)
  deriving Repr, DecidableEq

/-- The metrics that a protocol asks for. -/
structure Metrics where
  consensus : Bool
  discrepancy : Bool
  deriving Repr, DecidableEq

/-- Both metrics. -/
def Metrics.both : Metrics := ⟨true, true⟩

/-- The names of the metrics asked for. -/
def Metrics.names (metrics : Metrics) : List String :=
  (if metrics.consensus then ["consensus"] else []) ++
    (if metrics.discrepancy then ["discrepancy"] else [])

/-- The metrics that are named. -/
def Metrics.ofNames (names : List String) : Metrics :=
  ⟨names.contains "consensus", names.contains "discrepancy"⟩

/-- Whether no metric is asked for. -/
def Metrics.isEmpty (metrics : Metrics) : Bool :=
  !metrics.consensus && !metrics.discrepancy

/-- The kinds of delivery models. -/
inductive ModelKind
  | standard | guaranteed | broadcast
  deriving Repr, DecidableEq

/-- The word that names a kind of delivery models. -/
def ModelKind.word : ModelKind → String
  | .standard => "standard"
  | .guaranteed => "guaranteed"
  | .broadcast => "broadcast"

/-- The options written with a delivery model.  A model uses its own options
and passes over the others. -/
structure ModelOptions where
  minMessages : Option Int := none
  scope : Option String := none
  probability : Option String := none
  deriving Repr, DecidableEq

/-- A delivery model as declared, for one process or for all of them. -/
structure ModelSpec where
  kind : ModelKind
  options : ModelOptions := {}
  process : Option Int := none
  deriving Repr, DecidableEq

/-- What a channel promises to make up for lost messages. -/
inductive Guarantee
  | none | atLeastOne | majority
  deriving Repr, DecidableEq

/-- The word that names a guarantee. -/
def Guarantee.word : Guarantee → String
  | .none => "none"
  | .atLeastOne => "at_least_one"
  | .majority => "majority"

/-- The value of a setting: a real, a process, or a channel guarantee. -/
inductive Setting (R : Type)
  | real (value : R)
  | process (id : Int)
  | guarantee (value : Guarantee)
  deriving Repr, DecidableEq

/-- Settings by name.  The names are distinct and stand in the order in which
they were first given. -/
abbrev Settings (R : Type) := List (String × Setting R)

namespace Settings

variable {R : Type}

/-- The setting of a name. -/
def get? (settings : Settings R) (name : String) : Option (Setting R) :=
  settings.lookup name

/-- Give a setting a value; a name that has one keeps its place. -/
def set (settings : Settings R) (name : String) (value : Setting R) : Settings R :=
  match settings with
  | [] => [(name, value)]
  | (other, old) :: rest =>
      if other == name then (other, value) :: rest else (other, old) :: set rest name value

/-- The name under which ROLES stores the leader. -/
def leaderName : String := "leader_id"

/-- The name under which CHANNEL stores its guarantee. -/
def guaranteeName : String := "channel_guarantee"

/-- Whether a name is kept for ROLES and CHANNEL. -/
def isReserved (name : String) : Bool :=
  name == leaderName || name == guaranteeName

/-- The names that expressions may refer to. -/
def declared (settings : Settings R) : List String :=
  (settings.map (·.1)).filter fun name => !isReserved name

/-- The leader: the process that ROLES names, or the integer part of a real
stored in its place. -/
def leader [Scalar R] (settings : Settings R) : Except NotFinite (Option Int) :=
  match settings.get? leaderName with
  | some (.process id) => .ok (some id)
  | some (.real value) => (Scalar.truncate value).map some
  | _ => .ok Option.none

/-- The entry that decides the channel guarantee. -/
def channel (settings : Settings R) : Setting R :=
  (settings.get? guaranteeName).getD (.guarantee .none)

/-- The settings that are numbers, as reals. -/
def numbers [Scalar R] (settings : Settings R) : List (String × R) :=
  settings.filterMap fun (name, setting) => match setting with
    | .real value => some (name, value)
    | .process id =>
        let magnitude : R := Scalar.ofNat id.natAbs
        some (name, if id < 0 then -magnitude else magnitude)
    | .guarantee _ => Option.none

end Settings

end Protocol

open Protocol in
/-- A protocol whose parts fit together. -/
structure Protocol (R : Type) where
  name : String
  processes : Nat
  initial : Initial R
  phases : List (Phase R)
  metrics : Metrics
  settings : Settings R
  models : List ModelSpec
  stateVar : String
  domain : Option String
  deriving Repr, DecidableEq

namespace Protocol

/-- A protocol as written down, before its parts are compared. -/
structure Declaration (R : Type) where
  name : String
  processes : Int
  values : Option (List R) := none
  rule : Option (Expr R) := none
  phases : List (Phase R) := []
  metrics : Metrics := .both
  settings : Settings R := []
  models : List ModelSpec := [{ kind := .standard }]
  stateVar : String := "x"
  domain : Option String := none

/-- Why a declaration is no protocol. -/
inductive DeclarationError
  | processes (count : Int)
  | initialForms
  | initialCount (found : Nat) (expected : Int)
  | noMetric
  | noModel
  | severalEnds
  | severalGlobalModels
  deriving Repr, DecidableEq

/-- The text of a declaration error. -/
def DeclarationError.message : DeclarationError → String
  | .processes count => "num_processes must be positive, got " ++ toString count
  | .initialForms => "Exactly one of init_values and init_rule must be given"
  | .initialCount found expected =>
      "init_values has " ++ toString found ++ " entries, expected " ++ toString expected
  | .noMetric => "At least one metric is required"
  | .noModel => "At least one delivery model is required"
  | .severalEnds => "At most one END phase is allowed"
  | .severalGlobalModels => "Only one global delivery model may be declared"

namespace Declaration

variable {R : Type}

/-- The initial values, if exactly one of the two forms is given. -/
def initial (declaration : Declaration R) : Except DeclarationError (Initial R) :=
  match declaration.values, declaration.rule with
  | some values, none =>
      if values.length != declaration.processes then
        .error (.initialCount values.length declaration.processes)
      else .ok (.values values)
  | none, some rule => .ok (.rule rule)
  | _, _ => .error .initialForms

/-- The protocol that a declaration describes, or the first fault in it. -/
def check (declaration : Declaration R) : Except DeclarationError (Protocol R) := do
  if declaration.processes < 1 then
    throw (.processes declaration.processes)
  let initial ← declaration.initial
  if declaration.metrics.isEmpty then
    throw .noMetric
  if declaration.models.isEmpty then
    throw .noModel
  if 1 < (declaration.phases.filter Phase.isEnd).length then
    throw .severalEnds
  if 1 < (declaration.models.filter (·.process.isNone)).length then
    throw .severalGlobalModels
  return {
    name := declaration.name
    processes := declaration.processes.toNat
    initial := initial
    phases := declaration.phases
    metrics := declaration.metrics
    settings := declaration.settings
    models := declaration.models
    stateVar := declaration.stateVar
    domain := declaration.domain }

end Declaration

/-- Why a phase cannot be declared. -/
structure PhaseError where
  after : Option Int
  deriving Repr, DecidableEq

/-- The text of a phase error. -/
def PhaseError.message (error : PhaseError) : String :=
  "AFTER_ROUNDS phase needs a non-negative round count, got " ++
    match error.after with
    | some count => toString count
    | none => "None"

/-- A phase, if it says for how many rounds it waits whenever it has to. -/
def Phase.check {R : Type} (phase : Phase R) : Except PhaseError (Phase R) :=
  if phase.isSound then .ok phase else .error ⟨phase.after⟩

end Protocol

end LossyConsensus
