/-
# Messages

A message carries a value from one process to another within a round.
Processes are numbered from 1.
-/

namespace LossyConsensus.Network

/-- A value on its way from one process to another. -/
structure Message (R : Type) where
  sender : Int
  receiver : Int
  payload : R
  deriving Repr, DecidableEq

/-- The numbers of `count` processes, in ascending order. -/
def processIds (count : Nat) : List Int :=
  (List.range count).map fun (k : Nat) => (k : Int) + 1

/-- The messages of one process to every other process. -/
def floodFrom {R : Type} (count : Nat) (sender : Int) (payload : R) : List (Message R) :=
  ((processIds count).filter (· != sender)).map fun receiver => { sender, receiver, payload }

/-- Every process's value sent to every other process: senders in ascending
order, and for each of them the receivers in ascending order. -/
def flood {R : Type} (values : List R) : List (Message R) :=
  (values.zipIdx 1).flatMap fun (value, sender) => floodFrom values.length sender value

end LossyConsensus.Network
