/-
# Scanning seeds

Rejection sampling over consecutive seeds: each seed is tried in turn, the
valid outcomes are kept, and the scan ends when enough of them are found or the
budget is spent.  A scan in batches tries several seeds before it looks at
their outcomes one by one.

An attempt is a function from a seed to an outcome or an error; what a scan
finds depends on nothing else.
-/

namespace LossyConsensus.Sampling

variable {ε α : Type}

/-- The valid outcomes of a scan with their seeds, and how many seeds were
tried. -/
structure Scan (α : Type) where
  valid : List (Int × α)
  attempts : Nat
  deriving Repr, DecidableEq

/-- A scan under way: what is still wanted, the next seed, the seeds tried, and
the valid outcomes found, the latest first. -/
structure Progress (α : Type) where
  wanted : Nat
  seed : Int
  attempts : Nat
  found : List (Int × α)

namespace Progress

/-- The start of a scan. -/
def start (wanted : Nat) (seed : Int) : Progress α :=
  { wanted, seed, attempts := 0, found := [] }

/-- Count the outcome of the next seed. -/
def count (progress : Progress α) (isValid : α → Bool) (outcome : α) : Progress α :=
  let valid := isValid outcome
  { wanted := if valid then progress.wanted - 1 else progress.wanted
    seed := progress.seed + 1
    attempts := progress.attempts + 1
    found := if valid then (progress.seed, outcome) :: progress.found else progress.found }

/-- What a finished scan found. -/
def finish (progress : Progress α) : Scan α :=
  { valid := progress.found.reverse, attempts := progress.attempts }

end Progress

/-- Try at most `budget` further seeds, one at a time. -/
def scanFrom (attempt : Int → Except ε α) (isValid : α → Bool) :
    Nat → Progress α → Except ε (Progress α)
  | 0, progress => .ok progress
  | budget + 1, progress =>
      if progress.wanted == 0 then .ok progress
      else
        match attempt progress.seed with
        | .error error => .error error
        | .ok outcome => scanFrom attempt isValid budget (progress.count isValid outcome)

/-- Scan seeds one at a time. -/
def scan (attempt : Int → Except ε α) (isValid : α → Bool) (wanted budget : Nat) (seed : Int) :
    Except ε (Scan α) :=
  (scanFrom attempt isValid budget (Progress.start wanted seed)).map Progress.finish

/-- Go through the outcomes of a batch of `size` seeds in order.  Each outcome
is demanded before it is asked whether enough have been found. -/
def scanBatch (attempt : Int → Except ε α) (isValid : α → Bool) :
    Nat → Progress α → Except ε (Progress α)
  | 0, progress => .ok progress
  | size + 1, progress =>
      match attempt progress.seed with
      | .error error => .error error
      | .ok outcome =>
          if progress.wanted == 0 then .ok progress
          else scanBatch attempt isValid size (progress.count isValid outcome)

/-- The number of seeds in the next batch: as many as are wanted but at least
one for each worker, within the budget. -/
def batchSize (workers budget : Nat) (progress : Progress α) : Nat :=
  min (max progress.wanted workers) (budget - progress.attempts)

/-- Scan batches until enough outcomes are found or the budget is spent; every
batch tries at least one seed, so `fuel` batches suffice when it is the
budget. -/
def scanBatches (attempt : Int → Except ε α) (isValid : α → Bool) (workers budget : Nat) :
    Nat → Progress α → Except ε (Progress α)
  | 0, progress => .ok progress
  | fuel + 1, progress =>
      if progress.wanted == 0 || budget ≤ progress.attempts then .ok progress
      else
        match scanBatch attempt isValid (batchSize workers budget progress) progress with
        | .error error => .error error
        | .ok progress => scanBatches attempt isValid workers budget fuel progress

/-- Scan seeds in batches for a number of workers. -/
def scanParallel (attempt : Int → Except ε α) (isValid : α → Bool)
    (workers wanted budget : Nat) (seed : Int) : Except ε (Scan α) :=
  (scanBatches attempt isValid workers budget budget (Progress.start wanted seed)).map
    Progress.finish

end LossyConsensus.Sampling
