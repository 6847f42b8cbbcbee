/-
# Distances in a directed graph

A search in layers: the nodes that one further edge reaches for the first time
form the next layer, and the number of layers beyond the start is the greatest
distance from it.
-/

import LossyConsensus.Network.Message
import Std.Data.TreeSet

namespace LossyConsensus.Network

/-- The result of a search from one node: the nodes reached and the greatest
distance among them. -/
structure Reach where
  reached : Std.TreeSet Int
  distance : Nat

variable {ε : Type}

/-- Add nodes to those reached; the new ones go in front of a layer. -/
def meetAll : List Int → Std.TreeSet Int → List Int → Std.TreeSet Int × List Int
  | [], reached, layer => (reached, layer)
  | node :: nodes, reached, layer =>
      if reached.contains node then meetAll nodes reached layer
      else meetAll nodes (reached.insert node) (node :: layer)

/-- Add what one edge from a frontier reaches to the nodes reached and, where it
is new, to a layer that is still in reverse. -/
def nextLayer (neighbors : Int → Except ε (List Int)) :
    List Int → Std.TreeSet Int → List Int → Except ε (Std.TreeSet Int × List Int)
  | [], reached, layer => .ok (reached, layer.reverse)
  | node :: frontier, reached, layer => do
      let (reached, layer) := meetAll (← neighbors node) reached layer
      nextLayer neighbors frontier reached layer

/-- Continue a search for at most `fuel` further layers. -/
def searchFrom (neighbors : Int → Except ε (List Int)) :
    Nat → List Int → Reach → Except ε Reach
  | 0, _, reach => .ok reach
  | fuel + 1, frontier, ⟨reached, distance⟩ => do
      let (reached, layer) ← nextLayer neighbors frontier reached []
      if layer.isEmpty then return ⟨reached, distance⟩
      searchFrom neighbors fuel layer ⟨reached, distance + 1⟩

/-- Search a graph of `count` nodes from one of them.  Every layer but the
first holds a node not reached before, so `count` layers suffice. -/
def search (neighbors : Int → Except ε (List Int)) (count : Nat) (start : Int) :
    Except ε Reach :=
  searchFrom neighbors count [start] ⟨(∅ : Std.TreeSet Int).insert start, 0⟩

/-- The greatest of a distance and those from the given nodes, or nothing when
one of them does not reach all nodes. -/
def longestFrom (neighbors : Int → Except ε (List Int)) (count : Nat) :
    List Int → Nat → Except ε (Option Nat)
  | [], longest => .ok (some longest)
  | start :: starts, longest => do
      let reach ← search neighbors count start
      if reach.reached.size < count then return none
      longestFrom neighbors count starts (max longest reach.distance)

/-- Neighbours that are looked up where a table has them. -/
def tabulated (neighbors : Int → Except ε (List Int)) (table : Array (List Int)) (node : Int) :
    Except ε (List Int) :=
  if 1 ≤ node then match table[(node - 1).toNat]? with
    | some found => .ok found
    | none => neighbors node
  else neighbors node

/-- The greatest distance between two nodes, or nothing when some node does not
reach all others.  Once the first node is known to reach all of them, their
neighbours are asked for once only. -/
def searchDiameter (neighbors : Int → Except ε (List Int)) (count : Nat) :
    Except ε (Option Nat) := do
  if count == 0 then return some 0
  let first ← search neighbors count 1
  if first.reached.size < count then return none
  let table ← (processIds count).mapM neighbors
  longestFrom (tabulated neighbors table.toArray) count ((processIds count).drop 1)
    first.distance

/-- The greatest distance between two nodes as a number, which is -1 when some node
does not reach all others. -/
def searchedDiameter (neighbors : Int → Except ε (List Int)) (count : Nat) : Except ε Int := do
  let longest ← searchDiameter neighbors count
  return match longest with
    | some distance => distance
    | none => -1

end LossyConsensus.Network
