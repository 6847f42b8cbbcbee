/-
# Figures

A figure holds curves or bars under a title, with labelled axes.  A figure
without data has nothing but its title.
-/

import LossyConsensus.Decimal.Places

namespace LossyConsensus

namespace Figure

/-- A curve of points joined by lines, with the lengths of its error bars if it
has any. -/
structure Curve where
  name : String
  xs : List Float
  ys : List Float
  color : Option String
  width : Nat := 2
  errors : Option (List Float × List Float) := none
  deriving Repr

/-- The bars of a histogram, as fractions of the samples. -/
structure Bars where
  samples : List Float
  count : Option Int
  color : Option String
  opacity : Float := 0.7
  deriving Repr

/-- A vertical line with a note on it. -/
structure Mark where
  x : Float
  note : String
  deriving Repr

/-- What stands on a figure's axes. -/
structure Axes where
  x : String
  y : String
  legend : Bool
  logarithmic : Bool := false
  fromZeroTo : Option Float := none
  deriving Repr

end Figure

open Figure in
/-- A figure, which need not have a title. -/
structure Figure where
  title : Option String
  axes : Option Axes := none
  curves : List Curve := []
  bars : Option Bars := none
  mark : Option Mark := none
  deriving Repr

namespace Figure

/-- A figure without data. -/
def noData (title : Option String) : Figure where
  title := some (title.getD "None" ++ " (no data)")

/-- The colours of the curves of a figure, in turn. -/
def colors : List String :=
  ["steelblue", "coral", "green", "purple", "orange", "brown"]

/-- The colour of a curve. -/
def colorOf (index : Nat) : String :=
  colors.getD (index % colors.length) "steelblue"

/-- A title, or the default one when it is absent or empty. -/
def titleOr (default : String) (title : Option String) : String :=
  match title with
  | some title => if title.isEmpty then default else title
  | none => default

/-- Fewer labels than curves. -/
inductive LabelError
  | missing
  deriving Repr, DecidableEq

/-- The text of a label error. -/
def LabelError.message (_ : LabelError) : String :=
  "list index out of range"

/-- The label of a curve; without labels it is the default one. -/
def labelOr (default : String) (labels : List String) (index : Nat) :
    Except LabelError String :=
  if labels.isEmpty then .ok default
  else match labels[index]? with
    | some label => .ok label
    | none => .error .missing

end Figure

end LossyConsensus
