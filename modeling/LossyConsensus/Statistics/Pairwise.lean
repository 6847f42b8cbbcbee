/-
# Pairwise sums

Sums of long lists that add halves rather than single items, so that rounding
errors grow slowly.  Up to 128 items are added in eight interleaved partial
sums; longer lists are divided at a multiple of eight.
-/

import LossyConsensus.Scalar

namespace LossyConsensus.Statistics

variable {R : Type} [Scalar R]

/-- The items of a list added from left to right, starting at the first. -/
def leftSum : List R → R
  | [] => Scalar.zero
  | first :: rest => rest.foldl (· + ·) first

/-- Add full blocks of eight items to eight partial sums: the partial sums and
the items left. -/
def addBlocks (partials : List R) : List R → List R × List R
  | a :: b :: c :: d :: e :: f :: g :: h :: rest =>
      addBlocks (List.zipWith (· + ·) partials [a, b, c, d, e, f, g, h]) rest
  | rest => (partials, rest)

/-- The sum of eight partial sums, in pairs. -/
def joinPartials : List R → R
  | [a, b, c, d, e, f, g, h] => ((a + b) + (c + d)) + ((e + f) + (g + h))
  | partials => leftSum partials

/-- The sum of at least eight items through eight partial sums. -/
def blockSum (values : List R) : R :=
  let (partials, rest) := addBlocks (values.take 8) (values.drop 8)
  rest.foldl (· + ·) (joinPartials partials)

/-- Where a long list is divided: half its length, rounded down to a multiple
of eight. -/
def splitPoint (length : Nat) : Nat :=
  length / 2 / 8 * 8

/-- The pairwise sum of a list. -/
def pairwiseSum (values : List R) : R :=
  if values.length < 8 then leftSum values
  else if values.length ≤ 128 then blockSum values
  else
    pairwiseSum (values.take (splitPoint values.length)) +
      pairwiseSum (values.drop (splitPoint values.length))
termination_by values.length
decreasing_by
  · simp only [List.length_take, splitPoint]; omega
  · simp only [List.length_drop, splitPoint]; omega

/-- The mean of a list by its pairwise sum.  The sum is added to zero, so a
mean of negative zeros has no sign. -/
def pairwiseMean (values : List R) : R :=
  (Scalar.zero + pairwiseSum values) / Scalar.ofNat values.length

/-- The squared distances of values from a centre. -/
def squaredDistances (centre : R) (values : List R) : List R :=
  values.map fun value => (value - centre) * (value - centre)

/-- The sample variance of a list, over one less than its length; zero for
fewer than two values. -/
def sampleVariance (values : List R) : R :=
  if values.length < 2 then Scalar.zero
  else
    pairwiseSum (squaredDistances (pairwiseMean values) values) /
      Scalar.ofNat (values.length - 1)

/-- The sums of the columns of rows of equal length, added row after row to
zeros. -/
def columnSums (rows : List (List R)) : List R :=
  match rows with
  | [] => []
  | first :: _ => rows.foldl (List.zipWith (· + ·)) (first.map fun _ => Scalar.zero)

/-- Whether rows of equal length have a single column. -/
def isColumn (rows : List (List R)) : Bool :=
  rows.head?.any fun row => row.length == 1

/-- The means of the columns of rows of equal length.  A single column is added
pairwise. -/
def columnMeans (rows : List (List R)) : List R :=
  if isColumn rows then [pairwiseMean rows.flatten]
  else (columnSums rows).map fun sum => sum / Scalar.ofNat rows.length

/-- The sample variances of the columns of rows of equal length, added as the
means are. -/
def columnVariances (rows : List (List R)) : List R :=
  if isColumn rows then [sampleVariance rows.flatten]
  else
    let means := columnMeans rows
    let squares := rows.map fun row =>
      List.zipWith (fun value mean => (value - mean) * (value - mean)) row means
    (columnSums squares).map fun sum => sum / Scalar.ofNat (rows.length - 1)

end LossyConsensus.Statistics
