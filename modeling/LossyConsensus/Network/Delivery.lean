/-
# Delivery

A delivery model decides, for each sender's batch of messages, which of them
arrive.  Draws are taken sender by sender in ascending order and within a batch
in the order of the messages, so what arrives depends on the seed, the
probability and the number of messages only, never on their values.
-/

import LossyConsensus.Network.Message
import LossyConsensus.Network.Topology
import LossyConsensus.Protocol.Declaration
import LossyConsensus.Random.Generator
import LossyConsensus.Text.Quoted

namespace LossyConsensus.Network

open LossyConsensus.Protocol LossyConsensus.Random

/-- What a guaranteed model counts messages over. -/
inductive Scope
  | perRound | total
  deriving Repr, DecidableEq

/-- The word that names a scope. -/
def Scope.word : Scope → String
  | .perRound => "per_round"
  | .total => "total"

/-- How a broadcast model describes its draw; the draw is the same. -/
inductive Mode
  | perSource | uniform
  deriving Repr, DecidableEq

/-- The word that names a mode. -/
def Mode.word : Mode → String
  | .perSource => "per_source"
  | .uniform => "uniform"

/-- A delivery model.  `standard` and `guaranteed` draw for every message, and
`broadcast` once for a sender's whole batch.  A guaranteed model also demands
a number of delivered messages, which is judged when a run is over. -/
inductive Model
  | standard
  | guaranteed (minMessages : Int) (scope : Scope)
  | broadcast (mode : Mode)
  deriving Repr, DecidableEq

/-- Why a delivery model cannot be made. -/
inductive ModelError
  | minMessages (count : Int)
  | scope (word : String)
  | probability (word : String)
  deriving Repr, DecidableEq

/-- The text of a model error. -/
def ModelError.message : ModelError → String
  | .minMessages count => "min_messages must be non-negative, got " ++ toString count
  | .scope word => "scope must be 'per_round' or 'total', got " ++ Text.quote word
  | .probability word =>
      "probability must be 'per_source' or 'uniform', got " ++ Text.quote word

namespace Model

/-- The model that a specification describes, absent options having their
defaults. -/
def ofSpec (spec : ModelSpec) : Except ModelError Model :=
  match spec.kind with
  | .standard => .ok .standard
  | .guaranteed =>
      let count := spec.options.minMessages.getD 1
      let word := spec.options.scope.getD Scope.perRound.word
      if count < 0 then .error (.minMessages count)
      else match [Scope.perRound, Scope.total].find? fun scope => scope.word == word with
        | some scope => .ok (.guaranteed count scope)
        | none => .error (.scope word)
  | .broadcast =>
      let word := spec.options.probability.getD Mode.perSource.word
      match [Mode.perSource, Mode.uniform].find? fun mode => mode.word == word with
      | some mode => .ok (.broadcast mode)
      | none => .error (.probability word)

/-- Whether the model demands a number of messages. -/
def isGuaranteed : Model → Bool
  | .guaranteed _ _ => true
  | _ => false

/-- Whether a run with the given message counts meets the model's demand. -/
def isSatisfied (model : Model) (perRound : List Int) (total : Int) : Bool :=
  match model with
  | .guaranteed count .perRound => perRound.all (count ≤ ·)
  | .guaranteed count .total => count ≤ total
  | _ => true

variable {R : Type} [Scalar R]

/-- Which messages of a batch arrive. -/
def sample (model : Model) (p : R) (count : Nat) (generator : Generator) :
    List Bool × Generator :=
  match model with
  | .broadcast _ =>
      if count == 0 then ([], generator)
      else
        let (draw, generator) := generator.draw
        (List.replicate count (Scalar.lt (Scalar.ofDraw draw) p), generator)
  | _ =>
      let (draws, generator) := generator.draws count
      (draws.map fun draw => Scalar.lt (Scalar.ofDraw draw) p, generator)

/-- The bytes that a message takes while a model decides about it. -/
def itemBytes : Model → Nat
  | .broadcast _ => 1
  | _ => drawBytes

/-- Which messages of a batch arrive whose size may be unusable.  Where one draw
decides for the whole batch, it is taken before the size is looked at. -/
def sampleOf (model : Model) (p : R) (size : Int) (generator : Generator) :
    Except CountError (List Bool) × Generator :=
  match countError? model.itemBytes size with
  | some error =>
      match model with
      | .broadcast _ => (.error error, generator.draw.2)
      | _ => (.error error, generator)
  | none =>
      let (flags, generator) := model.sample p size.toNat generator
      (.ok flags, generator)

/-- Sample `batches` batches of equal size one after the other. -/
def sampleBatches (model : Model) (p : R) (size : Nat) :
    Nat → Generator → List Bool × Generator
  | 0, generator => ([], generator)
  | batches + 1, generator =>
      let (first, generator) := model.sample p size generator
      let (rest, generator) := sampleBatches model p size batches generator
      (first ++ rest, generator)

/-- Which of the slots from each of `count` processes to each other one
deliver, senders in ascending order and for each of them the receivers.  An
unusable size is found at the first sender. -/
def slots (model : Model) (p : R) (count : Int) (generator : Generator) :
    Except CountError (List Bool) × Generator :=
  if count ≤ 0 then (.ok [], generator)
  else if (countError? model.itemBytes (count - 1)).isSome then
    model.sampleOf p (count - 1) generator
  else
    let (flags, generator) := model.sampleBatches p (count - 1).toNat count.toNat generator
    (.ok flags, generator)

/-- The text that shows a delivery model with its parameters. -/
def describe : Model → String
  | .standard => "StandardModel()"
  | .guaranteed count scope =>
      "GuaranteedModel(min_messages=" ++ toString count ++ ", scope=" ++
        Text.quote scope.word ++ ")"
  | .broadcast mode => "BroadcastModel(probability=" ++ Text.quote mode.word ++ ")"

end Model

/-- The delivery models of `count` processes: one for all of them, and those of
single processes in the order of their specifications. -/
structure Assignment where
  count : Nat
  common : Model
  own : List (Int × Model)
  deriving Repr, DecidableEq

namespace Assignment

/-- Assign the models of a list of specifications.  The first specification
without a process is the common one, and a process's last one is its own. -/
def ofSpecs (specs : List ModelSpec) (count : Nat) : Except ModelError Assignment := do
  let common ← match specs.find? fun spec => spec.process.isNone with
    | some spec => Model.ofSpec spec
    | none => .ok .standard
  let own ← specs.filterMapM fun spec => match spec.process with
    | some id => (Model.ofSpec spec).map fun model => some (id, model)
    | none => .ok none
  return { count, common, own := own.reverse }

/-- The model that a process has of its own. -/
def own? (assignment : Assignment) (id : Int) : Option Model :=
  if 1 ≤ id && id ≤ (assignment.count : Int) then assignment.own.lookup id else none

/-- The model of a sender.  Whoever is not one of the processes has the
standard model. -/
def model (assignment : Assignment) (id : Int) : Model :=
  if 1 ≤ id && id ≤ (assignment.count : Int) then
    (assignment.own.lookup id).getD assignment.common
  else .standard

/-- The guaranteed models in the order of the processes, starting at those
given; the common model is listed once, where it first applies. -/
def guaranteedFrom (assignment : Assignment) (seenCommon : Bool) : List Int → List Model
  | [] => []
  | id :: ids =>
      match assignment.own? id with
      | some model =>
          if model.isGuaranteed then model :: guaranteedFrom assignment seenCommon ids
          else guaranteedFrom assignment seenCommon ids
      | none =>
          if assignment.common.isGuaranteed && !seenCommon then
            assignment.common :: guaranteedFrom assignment true ids
          else guaranteedFrom assignment seenCommon ids

/-- The guaranteed models that some process has. -/
def guaranteed (assignment : Assignment) : List Model :=
  assignment.guaranteedFrom false (processIds assignment.count)

/-- Whether a run with the given message counts meets every guaranteed
model. -/
def isSatisfied (assignment : Assignment) (perRound : List Int) (total : Int) : Bool :=
  assignment.guaranteed.all fun model => model.isSatisfied perRound total

end Assignment

/-- Messages divided by whether they arrive. -/
structure Outcome (R : Type) where
  delivered : List (Message R)
  undelivered : List (Message R)
  deriving Repr, DecidableEq

variable {R : Type} [Scalar R]

/-- Divide a batch by the flags of its messages. -/
def divide (batch : List (Message R)) (flags : List Bool) : Outcome R where
  delivered := (batch.zip flags).filterMap fun (message, arrives) =>
    if arrives then some message else none
  undelivered := (batch.zip flags).filterMap fun (message, arrives) =>
    if arrives then none else some message

/-- Deliver the batches of the given senders one after the other. -/
def deliverFrom (assignment : Assignment) (p : R) (outbound : List (Message R)) :
    List Int → Generator → Outcome R × Generator
  | [], generator => (⟨[], []⟩, generator)
  | sender :: senders, generator =>
      let batch := outbound.filter fun message => message.sender == sender
      let (flags, generator) := (assignment.model sender).sample p batch.length generator
      let first := divide batch flags
      let (rest, generator) := deliverFrom assignment p outbound senders generator
      (⟨first.delivered ++ rest.delivered, first.undelivered ++ rest.undelivered⟩, generator)

/-- Deliver messages: batches of ascending senders, each in its own order. -/
def deliver (assignment : Assignment) (p : R) (outbound : List (Message R))
    (generator : Generator) : Outcome R × Generator :=
  deliverFrom assignment p outbound (Topology.asSet (outbound.map (·.sender))) generator

end LossyConsensus.Network
