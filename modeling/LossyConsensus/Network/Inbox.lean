/-
# Inboxes

The messages delivered to each process in a round, and the channel guarantee,
which tops up inboxes from the messages that were lost.  Receivers are visited
in ascending order, and each takes the first lost messages addressed to it.
-/

import LossyConsensus.Network.Delivery

namespace LossyConsensus.Network

open LossyConsensus.Protocol

-- Sums start from the zero of the core library, whatever algebra is imported
-- beside it.
attribute [local instance (2000)] Zero.ofOfNat0

/-- Inboxes by receiver, each in the order of delivery.  The receivers are
distinct. -/
abbrev Inboxes (R : Type) := List (Int × List (Message R))

namespace Inboxes

variable {R : Type}

/-- Empty inboxes of `count` processes. -/
def empty (count : Nat) : Inboxes R :=
  (processIds count).map fun id => (id, [])

/-- The inbox of a receiver; without one it is empty. -/
def get (inboxes : Inboxes R) (receiver : Int) : List (Message R) :=
  (inboxes.lookup receiver).getD []

/-- Replace the inbox of a receiver, or add one. -/
def set (inboxes : Inboxes R) (receiver : Int) (messages : List (Message R)) : Inboxes R :=
  match inboxes with
  | [] => [(receiver, messages)]
  | (id, inbox) :: rest =>
      if id == receiver then (id, messages) :: rest
      else (id, inbox) :: set rest receiver messages

/-- Put a message into the inbox of its receiver. -/
def add (inboxes : Inboxes R) (message : Message R) : Inboxes R :=
  inboxes.set message.receiver (inboxes.get message.receiver ++ [message])

/-- The inboxes of `count` processes, filled with delivered messages. -/
def ofDelivered (count : Nat) (delivered : List (Message R)) : Inboxes R :=
  delivered.foldl add (empty count)

/-- How many messages the inboxes hold. -/
def size (inboxes : Inboxes R) : Nat :=
  (inboxes.map fun (_, inbox) => inbox.length).sum

end Inboxes

/-- How many messages a guarantee demands in each inbox. -/
def need (guarantee : Guarantee) (count : Nat) : Nat :=
  match guarantee with
  | .none => 0
  | .atLeastOne => 1
  | .majority => count / 2 + 1

variable {R : Type}

/-- Take at most `wanted` messages to a receiver out of a list, the first ones
there are: those taken and those left. -/
def takeFor (receiver : Int) : Nat → List (Message R) → List (Message R) × List (Message R)
  | 0, messages => ([], messages)
  | _ + 1, [] => ([], [])
  | wanted + 1, message :: rest =>
      if message.receiver == receiver then
        let (taken, left) := takeFor receiver wanted rest
        (message :: taken, left)
      else
        let (taken, left) := takeFor receiver (wanted + 1) rest
        (taken, message :: left)

/-- Top up the inboxes of the given receivers one after the other. -/
def topUpFrom (wanted : Nat) :
    List Int → Inboxes R → List (Message R) → Inboxes R × List (Message R)
  | [], inboxes, undelivered => (inboxes, undelivered)
  | receiver :: receivers, inboxes, undelivered =>
      let inbox := inboxes.get receiver
      let (taken, left) := takeFor receiver (wanted - inbox.length) undelivered
      topUpFrom wanted receivers (inboxes.set receiver (inbox ++ taken)) left

/-- Top up the inboxes of `count` processes as a guarantee demands.  Without a
guarantee nothing changes. -/
def topUp (guarantee : Guarantee) (count : Nat) (inboxes : Inboxes R)
    (undelivered : List (Message R)) : Inboxes R × List (Message R) :=
  match guarantee with
  | .none => (inboxes, undelivered)
  | _ => topUpFrom (need guarantee count) (processIds count) inboxes undelivered

end LossyConsensus.Network
