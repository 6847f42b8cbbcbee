/-
# Topologies

A topology says which processes a process can send to at all.  Neighbours are
sets of process ids, given in ascending order.

The diameter of a complete graph, a ring, a star and a grid has a closed form;
the other topologies are searched.
-/

import LossyConsensus.Network.Adjacency
import LossyConsensus.Network.Reach
import LossyConsensus.Random.Generator
import LossyConsensus.Slice
import LossyConsensus.Value

namespace LossyConsensus.Network

/-- A communication graph.

`grid` is laid out row by row with neighbours above, below, left and right.
`random` draws each directed edge with a probability, the edges out of a node
from the seed plus its id.  `circulant` links every node to its nearest
positions on a ring.  `bipartite` links every node of the left part to every
node of the right part.  `custom` gives the edges row by row. -/
inductive Topology (R : Type)
  | complete
  | ring
  | star
  | grid (rows cols : Int)
  | random (probability : R) (seed : Int)
  | circulant (degree : Int)
  | bipartite (left right : Int)
  | custom (rows : List (List Bool))
  deriving Repr, DecidableEq

/-- Why a topology cannot be made or does not fit a number of processes. -/
inductive TopologyError (R : Type)
  | gridSize (rows cols : Int)
  | gridCount (rows cols count : Int)
  | probability (value : R)
  | negativeDegree (degree : Int)
  | degreeTooHigh (count degree : Int)
  | emptyPart
  | parts (count : Int)
  | matrix (error : MatrixError)
  | matrixSize (size : Nat) (count : Int)
  | outside (index : Int) (size : Nat)
  | largeIndex
  | unusableIndex
  | seed (error : Random.SeedError)
  | draws (error : Random.CountError)
  deriving Repr, DecidableEq

/-- The text of a topology error. -/
def TopologyError.message : TopologyError Value → String
  | .gridSize rows cols =>
      "Grid dimensions must be positive, got " ++ toString rows ++ "x" ++ toString cols
  | .gridCount rows cols count =>
      "Grid " ++ toString rows ++ "x" ++ toString cols ++ " does not match " ++
        toString count ++ " processes"
  | .probability value => "edge_prob must be in [0, 1], got " ++ value.text
  | .negativeDegree degree => "k must be non-negative, got " ++ toString degree
  | .degreeTooHigh count degree =>
      "k must be less than the number of processes (" ++ toString count ++ "), got " ++
        toString degree
  | .emptyPart => "Both partitions must be non-empty"
  | .parts count => "Bipartite sizes do not add up to " ++ toString count ++ " processes"
  | .matrix error => error.message
  | .matrixSize size count =>
      "Adjacency matrix size " ++ toString size ++ " does not match " ++ toString count ++
        " processes"
  | .outside index size =>
      "index " ++ toString index ++ " is out of bounds for axis 0 with size " ++ toString size
  | .largeIndex => "Python int too large to convert to C long"
  | .unusableIndex =>
      "only integers, slices (`:`), ellipsis (`...`), numpy.newaxis (`None`) and integer or " ++
        "boolean arrays are valid indices"
  | .seed error => error.message
  | .draws error => error.message

namespace Topology

variable {R : Type} [Scalar R]

/-- A grid with at least one row and one column. -/
def ofGrid (rows cols : Int) : Except (TopologyError R) (Topology R) :=
  if rows < 1 || cols < 1 then .error (.gridSize rows cols) else .ok (.grid rows cols)

/-- A random graph whose edge probability is one. -/
def ofRandom (probability : R) (seed : Int) : Except (TopologyError R) (Topology R) :=
  if Scalar.isProbability probability then .ok (.random probability seed)
  else .error (.probability probability)

/-- A circulant graph of a degree that is not negative. -/
def ofCirculant (degree : Int) : Except (TopologyError R) (Topology R) :=
  if degree < 0 then .error (.negativeDegree degree) else .ok (.circulant degree)

/-- A bipartite graph with two parts that are not empty. -/
def ofBipartite (left right : Int) : Except (TopologyError R) (Topology R) :=
  if left < 1 || right < 1 then .error .emptyPart else .ok (.bipartite left right)

/-- A graph given by a square adjacency matrix. -/
def ofAdjacency (matrix : Adjacency) : Except (TopologyError R) (Topology R) :=
  (matrix.square.map .custom).mapError .matrix

/-- Put an id into its place in an ascending list, unless it is there. -/
def insertId (id : Int) : List Int → List Int
  | [] => [id]
  | first :: rest =>
      if id < first then id :: first :: rest
      else if id == first then first :: rest
      else first :: insertId id rest

/-- The members of a list, in ascending order and each of them once. -/
def asSet (ids : List Int) : List Int :=
  ids.foldr insertId []

/-- The ids from `first` to `last`. -/
def idsFrom (first last : Int) : List Int :=
  (List.range (last + 1 - first).toNat).map fun (k : Nat) => first + (k : Int)

/-- The positions of a ring that are at most `reach` away from a node, in the
order of their distance, the one before it first. -/
def ringPositions (node count : Int) (reach : Nat) : List Int :=
  (List.range reach).flatMap fun (k : Nat) =>
    let offset : Int := (k : Int) + 1
    [Int.emod (node - 1 - offset) count + 1, Int.emod (node - 1 + offset) count + 1]

/-- The `degree` positions of a ring that are nearest to a node.  Each step away
from it meets two more of them, or the last one. -/
def nearestPositions (node count : Int) (degree : Nat) : List Int :=
  (((ringPositions node count ((degree + 1) / 2)).filter (· != node)).eraseDups).take degree

/-- The targets in a row of an adjacency matrix, the node itself left out. -/
def rowTargets (row : List Bool) (index : Int) : List Int :=
  (row.zipIdx.filter fun (edge, column) => edge && (column : Int) != index).map
    fun (_, column) => (column : Int) + 1

/-- Why a row of a matrix cannot be taken: it lies outside the matrix, or its
index is no word, signed or not. -/
def rowError (index : Int) (size : Nat) : TopologyError R :=
  if isSignedWord index then .outside index size
  else if isUnsignedWord index then .largeIndex
  else .unusableIndex

/-- The processes that a node can send to among `count` of them. -/
def neighbors (topology : Topology R) (node count : Int) :
    Except (TopologyError R) (List Int) :=
  match topology with
  | .complete => .ok ((idsFrom 1 count).filter (· != node))
  | .ring =>
      if count == 1 then .ok []
      else
        let before := if node == 1 then count else node - 1
        let after := if node == count then 1 else node + 1
        .ok (asSet [before, after])
  | .star => .ok (if node == 1 then idsFrom 2 count else [1])
  | .grid rows cols =>
      if count != rows * cols then .error (.gridCount rows cols count)
      else
        let row := Int.fdiv (node - 1) cols
        let col := Int.fmod (node - 1) cols
        let above := if 0 < row then [node - cols] else []
        let below := if row < rows - 1 then [node + cols] else []
        let left := if 0 < col then [node - 1] else []
        let right := if col < cols - 1 then [node + 1] else []
        .ok (asSet (above ++ below ++ left ++ right))
  | .random probability seed => do
      let generator ← (Random.Generator.ofSeed (seed + node)).mapError .seed
      let (draws, _) ← (generator.drawsOf count).mapError .draws
      let edges := draws.zip (idsFrom 1 count)
      return (edges.filter fun (draw, id) =>
        id != node && Scalar.lt (Scalar.ofDraw draw) probability).map (·.2)
  | .circulant degree =>
      if count ≤ degree then .error (.degreeTooHigh count degree)
      else .ok (asSet (nearestPositions node count degree.toNat))
  | .bipartite left right =>
      if count != left + right then .error (.parts count)
      else .ok (if node ≤ left then idsFrom (left + 1) count else idsFrom 1 left)
  | .custom rows =>
      if (rows.length : Int) != count then .error (.matrixSize rows.length count)
      else match itemAt? rows (node - 1) with
        | some row => .ok (rowTargets row (node - 1))
        | none => .error (rowError (node - 1) rows.length)

/-- Whether a process can send to another one. -/
def connects (topology : Topology R) (sender receiver count : Int) :
    Except (TopologyError R) Bool := do
  return (← topology.neighbors sender count).contains receiver

/-- The length of the longest shortest path, or -1 when some process cannot
reach another one. -/
def diameter (topology : Topology R) (count : Int) : Except (TopologyError R) Int :=
  match topology with
  | .complete => .ok (if 1 < count then 1 else 0)
  | .ring => .ok (Int.fdiv count 2)
  | .star => .ok (min (count - 1) 2)
  | .grid rows cols =>
      if count != rows * cols then .error (.gridCount rows cols count)
      else .ok ((rows - 1) + (cols - 1))
  | _ => searchedDiameter (fun node => topology.neighbors node count) count.toNat

/-- The text that shows a topology with its parameters. -/
def describe : Topology Value → String
  | .complete => "CompleteGraph()"
  | .ring => "Ring()"
  | .star => "Star()"
  | .grid rows cols => "Grid(rows=" ++ toString rows ++ ", cols=" ++ toString cols ++ ")"
  | .random probability seed =>
      "RandomGraph(edge_prob=" ++ probability.text ++ ", seed=" ++ toString seed ++
        ")"
  | .circulant degree => "KRegular(k=" ++ toString degree ++ ")"
  | .bipartite left right =>
      "BipartiteGraph(left_size=" ++ toString left ++ ", right_size=" ++ toString right ++ ")"
  | .custom rows => "CustomTopology(n=" ++ toString rows.length ++ ")"

end Topology

end LossyConsensus.Network
