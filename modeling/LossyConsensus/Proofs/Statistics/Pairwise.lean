/-
# Sums and columns

A pairwise sum adds in an order of its own, which matters to doubles; of exact
numbers it is the sum.  Whatever the numbers are, rows of one length have as many
column means as they have columns.
-/

import LossyConsensus.Proofs.Scalar.Exact
import LossyConsensus.Statistics.Pairwise
import Mathlib.Algebra.BigOperators.Group.List.Basic

namespace LossyConsensus.Statistics

/-! ## Columns -/

section Columns

variable {R : Type} [Scalar R] {rows : List (List R)} {width : Nat}

omit [Scalar R] in
theorem length_foldl_zipWith (combine : R → R → R) {partials : List R}
    (hpartials : partials.length = width) (hrows : ∀ row ∈ rows, row.length = width) :
    (rows.foldl (List.zipWith combine) partials).length = width := by
  induction rows generalizing partials with
  | nil => exact hpartials
  | cons row rows ih =>
      obtain ⟨hrow, hrows⟩ := List.forall_mem_cons.mp hrows
      refine ih ?_ hrows
      rw [List.length_zipWith, hpartials, hrow, Nat.min_self]

theorem length_columnSums (hne : rows ≠ []) (hrows : ∀ row ∈ rows, row.length = width) :
    (columnSums rows).length = width := by
  cases rows with
  | nil => exact absurd rfl hne
  | cons first rest =>
      refine length_foldl_zipWith _ ?_ hrows
      rw [List.length_map]
      exact hrows first List.mem_cons_self

/-- Each column has a mean. -/
theorem length_columnMeans (hne : rows ≠ []) (hrows : ∀ row ∈ rows, row.length = width) :
    (columnMeans rows).length = width := by
  rw [columnMeans]
  split
  · next hcolumn =>
    cases rows with
    | nil => exact absurd rfl hne
    | cons first rest =>
        have hone : first.length = 1 := beq_iff_eq.mp hcolumn
        rw [List.length_singleton, ← hone]
        exact hrows first List.mem_cons_self
  · rw [List.length_map]
    exact length_columnSums hne hrows

end Columns

/-! ## Exact sums -/

variable {values : List ℚ}

theorem foldl_add_exact (start : ℚ) (values : List ℚ) :
    values.foldl (· + ·) start = start + values.sum := by
  induction values generalizing start with
  | nil => exact (add_zero start).symm
  | cons first rest ih => rw [List.foldl_cons, ih, List.sum_cons, add_assoc]

theorem leftSum_exact (values : List ℚ) : leftSum values = values.sum := by
  cases values with
  | nil => exact Scalar.zero_exact
  | cons first rest => rw [leftSum, foldl_add_exact, List.sum_cons]

/-- Adding blocks to eight partial sums keeps their number and the sum of all. -/
theorem addBlocks_exact {partials : List ℚ} (hpartials : partials.length = 8)
    (values : List ℚ) :
    (addBlocks partials values).1.sum + (addBlocks partials values).2.sum =
      partials.sum + values.sum := by
  induction partials, values using addBlocks.induct with
  | case1 partials a b c d e f g h rest ih =>
      have hblock : partials.length = [a, b, c, d, e, f, g, h].length := hpartials
      have hsum := List.sum_add_sum_eq_sum_zipWith_of_length_eq partials _ hblock
      rw [addBlocks, ih (by rw [List.length_zipWith, hpartials]; rfl), ← hsum]
      simp only [List.sum_cons, List.sum_nil, add_zero, add_assoc]
  | case2 partials values hshort => rw [addBlocks.eq_2 _ _ hshort]

theorem joinPartials_exact (partials : List ℚ) : joinPartials partials = partials.sum := by
  rw [joinPartials.eq_def]
  split
  · simp only [List.sum_cons, List.sum_nil, add_zero, add_assoc]
  · exact leftSum_exact _

theorem blockSum_exact (hlong : 8 ≤ values.length) : blockSum values = values.sum := by
  have hpartials : (values.take 8).length = 8 := by
    rw [List.length_take]
    omega
  calc blockSum values
      = (addBlocks (values.take 8) (values.drop 8)).2.foldl (· + ·)
          (joinPartials (addBlocks (values.take 8) (values.drop 8)).1) := rfl
    _ = (values.take 8).sum + (values.drop 8).sum := by
        rw [foldl_add_exact, joinPartials_exact, addBlocks_exact hpartials]
    _ = values.sum := by rw [← List.sum_append, List.take_append_drop]

/-- The pairwise sum of exact numbers is their sum. -/
theorem pairwiseSum_exact (values : List ℚ) : pairwiseSum values = values.sum := by
  induction values using pairwiseSum.induct with
  | case1 values hshort => rw [pairwiseSum, if_pos hshort, leftSum_exact]
  | case2 values hlong hblocks =>
      rw [pairwiseSum, if_neg hlong, if_pos hblocks, blockSum_exact (by omega)]
  | case3 values hlong hblocks ihtake ihdrop =>
      rw [pairwiseSum, if_neg hlong, if_neg hblocks, ihtake, ihdrop, ← List.sum_append,
        List.take_append_drop]

theorem pairwiseMean_exact (values : List ℚ) :
    pairwiseMean values = values.sum / values.length := by
  rw [pairwiseMean, pairwiseSum_exact, Scalar.zero_exact, zero_add, Scalar.ofNat_exact]

end LossyConsensus.Statistics
