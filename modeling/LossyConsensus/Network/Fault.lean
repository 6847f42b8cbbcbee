/-
# Faults

A fault model works on a round's messages before delivery: it may cut off a
sender from a receiver, change a value, or suppress a message.  All its draws
come from seeds of its own, so equal messages in equal rounds fare equally.
-/

import LossyConsensus.Network.Message
import LossyConsensus.Network.Topology
import LossyConsensus.Random.Generator
import LossyConsensus.Text.Quoted

namespace LossyConsensus.Network

open LossyConsensus.Random

-- Powers are those of the core library, whatever algebra is imported beside it.
attribute [local instance (2000)] instPowNat

/-- How a process lies about its value. -/
inductive Strategy
  | maxValue | minValue | random | opposite | silent
  deriving Repr, DecidableEq

/-- The word that names a strategy. -/
def Strategy.word : Strategy → String
  | .maxValue => "max_value"
  | .minValue => "min_value"
  | .random => "random"
  | .opposite => "opposite"
  | .silent => "silent"

/-- All strategies. -/
def Strategy.all : List Strategy :=
  [.maxValue, .minValue, .random, .opposite, .silent]

/-- How a value is corrupted. -/
inductive Corruption
  | flipBits | zero | max | random
  deriving Repr, DecidableEq

/-- The word that names a corruption. -/
def Corruption.word : Corruption → String
  | .flipBits => "flip_bits"
  | .zero => "zero"
  | .max => "max"
  | .random => "random"

/-- All corruptions. -/
def Corruption.all : List Corruption :=
  [.flipBits, .zero, .max, .random]

/-- A fault model over scalars `R`.

From `round` on, `crash` silences every process whose own draw is below the
probability.  `byzantine` processes lie in every round.  `partition` separates
groups from a round on, for good if the duration is zero.  `corruption` draws
for every message by itself.  `composite` applies several models: a message
passes if all of them let it pass, and each changes what the one before it
left. -/
inductive Fault (R : Type)
  | none
  | crash (probability : R) (round seed : Int)
  | byzantine (nodes : List Int) (strategy : Strategy)
  | partition (round duration : Int) (groups : List (List Int))
  | corruption (probability : R) (how : Corruption) (seed : Int)
  | composite (models : List (Fault R))
  deriving Repr

/-- Why a fault model cannot be made. -/
inductive FaultError (R : Type)
  | crashProbability (value : R)
  | crashRound (round : Int)
  | noNode
  | negativeNode
  | strategy (word : String)
  | partitionRound (round : Int)
  | partitionDuration (duration : Int)
  | fewGroups
  | overlappingGroups
  | corruptionProbability (value : R)
  | corruption (word : String)
  | noModel
  deriving Repr, DecidableEq

/-- The text of a fault error. -/
def FaultError.message : FaultError Value → String
  | .crashProbability value => "crash_prob must be in [0, 1], got " ++ value.text
  | .crashRound round => "crash_round must be positive, got " ++ toString round
  | .noNode => "ByzantineFaults needs at least one node"
  | .negativeNode => "Node ids must be positive"
  | .strategy word => "Unknown Byzantine strategy: " ++ Text.quote word
  | .partitionRound round => "partition_round must be positive, got " ++ toString round
  | .partitionDuration duration =>
      "partition_duration must be non-negative, got " ++ toString duration
  | .fewGroups => "A partition needs at least 2 groups"
  | .overlappingGroups => "Partition groups must be disjoint"
  | .corruptionProbability value =>
      "corruption_prob must be in [0, 1], got " ++ value.text
  | .corruption word => "Unknown corruption type: " ++ Text.quote word
  | .noModel => "CompositeFaults needs at least one model"

namespace Fault

variable {R : Type} [Scalar R]

/-- The magnitude of a value that is meant to be huge. -/
def extreme : R := Scalar.ofNat (10 ^ (10 : Nat))

/-- The value between -50 and 50 that a draw stands for. -/
def spread (draw : Nat) : R :=
  Scalar.ofNat 100 * Scalar.ofDraw draw - Scalar.ofNat 50

/-- Crashes with a probability that is one, from a round that exists. -/
def ofCrash (probability : R) (round seed : Int) : Except (FaultError R) (Fault R) :=
  if !Scalar.isProbability probability then .error (.crashProbability probability)
  else if round < 1 then .error (.crashRound round)
  else .ok (.crash probability round seed)

/-- Lying processes, at least one, with a strategy given by its word. -/
def ofByzantine (nodes : List Int) (strategy : String) : Except (FaultError R) (Fault R) :=
  if nodes.isEmpty then .error .noNode
  else if nodes.any (· < 1) then .error .negativeNode
  else match Strategy.all.find? fun s => s.word == strategy with
    | some s => .ok (.byzantine nodes s)
    | Option.none => .error (.strategy strategy)

/-- A partition into at least two disjoint groups. -/
def ofPartition (round duration : Int) (groups : List (List Int)) :
    Except (FaultError R) (Fault R) :=
  let members := groups.flatten
  if round < 1 then .error (.partitionRound round)
  else if duration < 0 then .error (.partitionDuration duration)
  else if groups.length < 2 then .error .fewGroups
  else if members.eraseDups.length != members.length then .error .overlappingGroups
  else .ok (.partition round duration groups)

/-- Corruption with a probability that is one, of a kind given by its word. -/
def ofCorruption (probability : R) (how : String) (seed : Int) :
    Except (FaultError R) (Fault R) :=
  if !Scalar.isProbability probability then .error (.corruptionProbability probability)
  else match Corruption.all.find? fun c => c.word == how with
    | some c => .ok (.corruption probability c seed)
    | Option.none => .error (.corruption how)

/-- Several models, at least one. -/
def ofModels (models : List (Fault R)) : Except (FaultError R) (Fault R) :=
  if models.isEmpty then .error .noModel else .ok (.composite models)

/-- Whether a process is one of those that crash. -/
def crashes (probability : R) (seed node : Int) : Except SeedError Bool := do
  let generator ← Generator.ofSeed (seed + node)
  return Scalar.lt (Scalar.ofDraw generator.draw.1) probability

/-- Whether a partition is in force. -/
def isSplit (start duration round : Int) : Bool :=
  start ≤ round && !(0 < duration && start + duration ≤ round)

/-- The processes among `count` that crash, if the model crashes any. -/
def crashed (fault : Fault R) (count : Int) : Except SeedError (List Int) :=
  match fault with
  | .crash probability _ seed =>
      (Topology.idsFrom 1 count).filterM fun node => crashes probability seed node
  | _ => .ok []

/-- Whether the groups of a partition are separated in a round. -/
def isActive (fault : Fault R) (round : Int) : Bool :=
  match fault with
  | .partition start duration _ => isSplit start duration round
  | _ => false

mutual

/-- Whether a process misbehaves in a round. -/
def isFaulty (fault : Fault R) (node round : Int) : Except SeedError Bool :=
  match fault with
  | .crash probability start seed =>
      if start ≤ round then crashes probability seed node else .ok false
  | .byzantine nodes _ => .ok (nodes.contains node)
  | .composite models => anyFaulty models node round
  | _ => .ok false

/-- Whether a process misbehaves by one of several models. -/
def anyFaulty (models : List (Fault R)) (node round : Int) : Except SeedError Bool :=
  match models with
  | [] => .ok false
  | model :: rest => do
      if ← model.isFaulty node round then return true else anyFaulty rest node round

end

mutual

/-- Whether a fault model lets a sender reach a receiver in a round. -/
def passes (fault : Fault R) (sender receiver round : Int) : Except SeedError Bool :=
  match fault with
  | .crash _ _ _ => do return !(← fault.isFaulty sender round)
  | .partition start duration groups =>
      .ok (!isSplit start duration round ||
        groups.any fun group => group.contains sender && group.contains receiver)
  | .composite models => allPass models sender receiver round
  | _ => .ok true

/-- Whether all of several models let a sender reach a receiver. -/
def allPass (models : List (Fault R)) (sender receiver round : Int) : Except SeedError Bool :=
  match models with
  | [] => .ok true
  | model :: rest => do
      if ← model.passes sender receiver round then allPass rest sender receiver round
      else return false

end

/-- A message with the value that a lying process sends in place of its own,
or nothing. -/
def lie (strategy : Strategy) (message : Message R) (round : Int) :
    Except SeedError (Option (Message R)) :=
  match strategy with
  | .silent => .ok Option.none
  | .maxValue => .ok (some { message with payload := extreme })
  | .minValue => .ok (some { message with payload := -extreme })
  | .opposite => .ok (some { message with payload := -message.payload })
  | .random => do
      let generator ← Generator.ofSeeds [message.sender, message.receiver, round]
      return some { message with payload := spread generator.draw.1 }

/-- A message after the draw that decides whether it is corrupted; a random
value comes from the draw after it. -/
def corrupt (probability : R) (how : Corruption) (seed : Int) (message : Message R)
    (round : Int) : Except SeedError (Message R) := do
  let generator ← Generator.ofSeeds [seed, message.sender, message.receiver, round]
  let (first, generator) := generator.draw
  if Scalar.le probability (Scalar.ofDraw first) then
    return message
  return { message with payload := match how with
    | .flipBits => Scalar.ofNat 1 - message.payload
    | .zero => Scalar.zero
    | .max => extreme
    | .random => spread generator.draw.1 }

mutual

/-- The message as it is sent, or nothing if it is suppressed. -/
def transform (fault : Fault R) (message : Message R) (round : Int) :
    Except SeedError (Option (Message R)) :=
  match fault with
  | .byzantine nodes strategy =>
      if nodes.contains message.sender then lie strategy message round else .ok (some message)
  | .corruption probability how seed => do
      return some (← corrupt probability how seed message round)
  | .composite models => transformAll models message round
  | _ => .ok (some message)

/-- The message after several models in turn, as long as none of them
suppresses it. -/
def transformAll (models : List (Fault R)) (message : Message R) (round : Int) :
    Except SeedError (Option (Message R)) :=
  match models with
  | [] => .ok (some message)
  | model :: rest => do
      match ← model.transform message round with
      | some message => transformAll rest message round
      | Option.none => return Option.none

end

/-- What a fault model leaves of one message. -/
def affect (fault : Fault R) (message : Message R) (round : Int) :
    Except SeedError (Option (Message R)) := do
  if ← fault.passes message.sender message.receiver round then fault.transform message round
  else return Option.none

/-- What a fault model leaves of a round's messages. -/
def apply (fault : Fault R) (messages : List (Message R)) (round : Int) :
    Except SeedError (List (Message R)) := do
  let affected ← messages.mapM fun message => fault.affect message round
  return affected.filterMap id

/-- The text of a list of ids between square brackets. -/
def idsText (ids : List Int) : String :=
  "[" ++ ", ".intercalate (ids.map toString) ++ "]"

mutual

/-- The text that shows a fault model with its parameters. -/
def describe : Fault Value → String
  | .none => "NoFaults()"
  | .crash probability round _ =>
      "CrashFaults(crash_prob=" ++ probability.text ++ ", crash_round=" ++
        toString round ++ ")"
  | .byzantine nodes strategy =>
      "ByzantineFaults(nodes=" ++ idsText (Topology.asSet nodes) ++ ", strategy=" ++
        Text.quote strategy.word ++ ")"
  | .partition round duration groups =>
      "NetworkPartition(partition_round=" ++ toString round ++ ", partition_duration=" ++
        toString duration ++ ", groups=[" ++
        ", ".intercalate (groups.map fun group => idsText (Topology.asSet group)) ++ "])"
  | .corruption probability how _ =>
      "MessageCorruption(corruption_prob=" ++ probability.text ++
        ", corruption_type=" ++ Text.quote how.word ++ ")"
  | .composite models => "CompositeFaults([" ++ ", ".intercalate (describeAll models) ++ "])"

/-- The texts that show several fault models. -/
def describeAll : List (Fault Value) → List String
  | [] => []
  | model :: rest => model.describe :: describeAll rest

end

end Fault

end LossyConsensus.Network
