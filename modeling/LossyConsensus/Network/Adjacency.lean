/-
# Adjacency matrices

A graph may be given by nested lists.  They are a matrix if they are nested two
deep and all rows have as many entries as there are rows.  Their sizes are found
by one walk through the lists: the first entry it meets fixes how deep they are
nested, and what comes after has to agree with the sizes found before.
-/

namespace LossyConsensus.Network

/-- What is given as an adjacency matrix: an entry, or a list of parts that may
themselves be lists. -/
inductive Adjacency
  | entry (edge : Bool)
  | list (parts : List Adjacency)
  deriving Repr, Inhabited

/-- How deep lists may be nested. -/
def maxNesting : Nat := 64

/-- What a walk through nested lists knows of them: the sizes of the lists on
its way, the outermost first, how many of these sizes may still hold for all
lists, whether this number is fixed by an entry, and whether some part did not
agree with the rest. -/
structure ShapeWalk where
  sizes : List Nat
  depth : Nat
  fixed : Bool
  ragged : Bool
  deriving Repr, DecidableEq

namespace ShapeWalk

/-- A walk that has not met anything. -/
def start : ShapeWalk :=
  { sizes := [], depth := maxNesting, fixed := false, ragged := false }

/-- Meet an entry below a number of lists. -/
def meetEntry (level : Nat) (walk : ShapeWalk) : ShapeWalk :=
  if walk.depth < level then { walk with fixed := true, ragged := true }
  else if walk.depth == level then { walk with fixed := true }
  else { walk with depth := level, fixed := true, ragged := walk.ragged || walk.fixed }

/-- Meet a list of a size below a number of lists.  If it does not agree with
what is known, there is no way into it. -/
def meetList (level size : Nat) (walk : ShapeWalk) : ShapeWalk × Bool :=
  if walk.depth ≤ level then ({ walk with ragged := true }, false)
  else if !walk.fixed then ({ walk with sizes := walk.sizes.take level ++ [size] }, true)
  else if walk.sizes[level]? == some size then (walk, true)
  else ({ walk with depth := level, ragged := true }, false)

/-- The sizes that hold for all lists. -/
def shape (walk : ShapeWalk) : List Nat :=
  walk.sizes.take walk.depth

end ShapeWalk

namespace Adjacency

mutual

/-- Walk through a part that is below a number of lists. -/
def walk (level : Nat) : Adjacency → ShapeWalk → ShapeWalk
  | .entry _, known => known.meetEntry level
  | .list [], known =>
      let (known, agrees) := known.meetList level 0
      if agrees then { known with depth := level + 1, fixed := true } else known
  | .list (part :: rest), known =>
      let (known, agrees) := known.meetList level (rest.length + 1)
      if agrees then walkAll (level + 1) (part :: rest) known else known

/-- Walk through several parts that are below a number of lists. -/
def walkAll (level : Nat) : List Adjacency → ShapeWalk → ShapeWalk
  | [], known => known
  | part :: rest, known => walkAll level rest (part.walk level known)

end

/-- Whether an entry is an edge; a list is none. -/
def isEdge : Adjacency → Bool
  | .entry edge => edge
  | .list _ => false

/-- The parts of a list. -/
def parts : Adjacency → List Adjacency
  | .entry _ => []
  | .list parts => parts

/-- The entries row by row. -/
def rows (matrix : Adjacency) : List (List Bool) :=
  matrix.parts.map fun row => row.parts.map isEdge

end Adjacency

/-- Why nested lists are no square matrix: they do not agree in their sizes, of
which the given ones hold for all of them, are nested too deep, or have another
shape. -/
inductive MatrixError
  | ragged (sizes : List Nat)
  | tooDeep
  | shape (sizes : List Nat)
  deriving Repr, DecidableEq

/-- A shape, as sizes between parentheses. -/
def shapeText : List Nat → String
  | [only] => "(" ++ toString only ++ ",)"
  | sizes => "(" ++ ", ".intercalate (sizes.map toString) ++ ")"

/-- The text of a matrix error. -/
def MatrixError.message : MatrixError → String
  | .ragged sizes =>
      "setting an array element with a sequence. The requested array has an inhomogeneous " ++
        "shape after " ++ toString sizes.length ++ " dimensions. The detected shape was " ++
        shapeText sizes ++ " + inhomogeneous part."
  | .tooDeep =>
      "setting an array element with a sequence. The requested array would exceed the " ++
        "maximum number of dimension of " ++ toString maxNesting ++ "."
  | .shape sizes => "Adjacency must be a square matrix, got shape " ++ shapeText sizes

/-- The rows of a square matrix. -/
def Adjacency.square (matrix : Adjacency) : Except MatrixError (List (List Bool)) :=
  let walk := matrix.walk 0 .start
  if walk.ragged then
    .error (if walk.depth == maxNesting then .tooDeep else .ragged walk.shape)
  else match walk.shape with
    | [height, width] => if height == width then .ok matrix.rows else .error (.shape walk.shape)
    | sizes => .error (.shape sizes)

end LossyConsensus.Network
