/-
# Items and slices of lists

Items are numbered from 0, and a negative index counts from the end.  A slice
takes the items between two bounds in steps; bounds outside the list are moved
to its ends.
-/

import LossyConsensus.Word

namespace LossyConsensus

/-- The item at an index. -/
def itemAt? {α : Type} (items : List α) (index : Int) : Option α :=
  if 0 ≤ index then items[index.toNat]?
  else if 0 ≤ index + (items.length : Int) then items[(index + (items.length : Int)).toNat]?
  else none

/-- Why an index gives no item: it lies outside the sequence, or beyond the
signed words that indices are kept in. -/
inductive IndexError
  | outside
  | tooLarge
  deriving Repr, DecidableEq

/-- The text of an index error about a sequence of the named kind. -/
def IndexError.message (kind : String) : IndexError → String
  | .outside => kind ++ " index out of range"
  | .tooLarge => "cannot fit 'int' into an index-sized integer"

/-- The item at an index, or why there is none. -/
def itemAt {α : Type} (items : List α) (index : Int) : Except IndexError α :=
  if !isSignedWord index then .error .tooLarge
  else match itemAt? items index with
    | some item => .ok item
    | none => .error .outside

/-- The items before a bound. -/
def takeBefore {α : Type} (bound : Int) (items : List α) : List α :=
  if 0 ≤ bound then items.take bound.toNat else items.take (items.length - (-bound).toNat)

/-- A bound of a slice, moved into the range from `low` to `high`. -/
def clampBound (length low high bound : Int) : Int :=
  let bound := if bound < 0 then bound + length else bound
  max low (min high bound)

/-- The indices of a slice: from the first bound up or down to the last one,
which is left out. -/
def sliceIndices (length : Nat) (first last : Option Int) (step : Int) : List Nat :=
  let size : Int := length
  let low : Int := if step < 0 then -1 else 0
  let high : Int := if step < 0 then size - 1 else size
  let start := match first with
    | some bound => clampBound size low high bound
    | none => if step < 0 then high else low
  let stop := match last with
    | some bound => clampBound size low high bound
    | none => if step < 0 then low else high
  let count := if step < 0 then (start - stop + -step - 1) / -step
    else (stop - start + step - 1) / step
  (List.range count.toNat).map fun (k : Nat) => (start + (k : Int) * step).toNat

/-- A slice of a list; there is none with step zero. -/
def slice? {α : Type} (items : List α) (first last step : Option Int) : Option (List α) :=
  let step := step.getD 1
  if step == 0 then none
  else some ((sliceIndices items.length first last step).filterMap fun index => items[index]?)

end LossyConsensus
