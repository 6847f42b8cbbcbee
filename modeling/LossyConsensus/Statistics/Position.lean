/-
# Positions of extreme values

Where the greatest or the least value of a list stands.  `firstLeast` and
`firstGreatest` count a value that is no number as more extreme than any other;
`lastGreatest` does so only where such a value comes first.
-/

import LossyConsensus.Scalar

namespace LossyConsensus.Statistics

/-- The index of the last greatest value. -/
def lastGreatest : List Float → Nat
  | [] => 0
  | first :: rest =>
      let best := Scalar.greatest first rest
      (((first :: rest).zipIdx.filter fun (value, _) => value == best).getLast?.map (·.2)).getD 0

/-- The index of the first most extreme value; `best` is the most extreme of
the values before `index` and stands at `place`. -/
def firstExtremeFrom (beats : Float → Float → Bool) (best : Float) (place index : Nat) :
    List Float → Nat
  | [] => place
  | value :: rest =>
      if best.isNaN then place
      else if value.isNaN || beats value best then
        firstExtremeFrom beats value index (index + 1) rest
      else firstExtremeFrom beats best place (index + 1) rest

/-- The index of the first most extreme value. -/
def firstExtreme (beats : Float → Float → Bool) : List Float → Nat
  | [] => 0
  | first :: rest => firstExtremeFrom beats first 0 1 rest

/-- The index of the first least value. -/
def firstLeast (values : List Float) : Nat :=
  firstExtreme (fun value best => value < best) values

/-- The index of the first greatest value. -/
def firstGreatest (values : List Float) : Nat :=
  firstExtreme (fun value best => best < value) values

end LossyConsensus.Statistics
