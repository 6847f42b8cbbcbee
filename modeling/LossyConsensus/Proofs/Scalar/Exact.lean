/-
# Exact scalars

The rational numbers as scalars: nothing rounds, every scalar is a number, and the
mean of some numbers lies between any two that bound them.
-/

import LossyConsensus.Proofs.Scalar.Law
import Mathlib.Algebra.Field.Rat
import Mathlib.Algebra.Order.BigOperators.Group.List
import Mathlib.Algebra.Order.Field.Basic
import Mathlib.Algebra.Order.Ring.Rat

namespace LossyConsensus

-- Powers are those of the core library, whatever algebra is imported beside it.
attribute [local instance (2000)] instPowNat

/-- Rational numbers, with their own arithmetic and comparisons. -/
instance : Scalar ℚ where
  ofNat count := count
  eq a b := decide (a = b)
  lt a b := decide (a < b)
  le a b := decide (a ≤ b)
  truncate value := .ok (value.num.tdiv value.den)

namespace Scalar

variable {a b low high : ℚ} {values : List ℚ}

@[simp]
theorem ofNat_exact (count : Nat) : (ofNat count : ℚ) = count := rfl

@[simp]
theorem zero_exact : (zero : ℚ) = 0 := Nat.cast_zero

@[simp]
theorem eq_exact : eq a b = true ↔ a = b := decide_eq_true_iff

@[simp]
theorem lt_exact : lt a b = true ↔ a < b := decide_eq_true_iff

@[simp]
theorem le_exact : le a b = true ↔ a ≤ b := decide_eq_true_iff

theorem isNumber_exact (value : ℚ) : IsNumber value := eq_exact.mpr rfl

/-- Added from left to right, numbers add up to their sum. -/
theorem sum_exact (values : List ℚ) : sum values = values.sum := by
  rw [sum, zero_exact, List.sum_eq_foldl]

/-- The mean of some numbers is bounded by what bounds all of them. -/
theorem mean_exact_bounds (hne : values ≠ [])
    (hvalues : ∀ value ∈ values, low ≤ value ∧ value ≤ high) :
    low ≤ mean values ∧ mean values ≤ high := by
  have hpos : (0 : ℚ) < values.length := Nat.cast_pos.mpr (List.length_pos_iff.mpr hne)
  have hlow : values.length • low ≤ values.sum :=
    List.card_nsmul_le_sum values low fun value hvalue => (hvalues value hvalue).1
  have hhigh : values.sum ≤ values.length • high :=
    List.sum_le_card_nsmul values high fun value hvalue => (hvalues value hvalue).2
  have hmean : mean values = values.sum / values.length := by
    rw [mean, sum_exact, ofNat_exact]
  rw [nsmul_eq_mul, mul_comm] at hlow hhigh
  rw [hmean]
  exact ⟨(le_div_iff₀ hpos).mpr hlow, (div_le_iff₀ hpos).mpr hhigh⟩

/-- So is the midpoint of two of them. -/
theorem midpoint_exact_bounds (ha : low ≤ a ∧ a ≤ high) (hb : low ≤ b ∧ b ≤ high) :
    low ≤ (a + b) / ofNat 2 ∧ (a + b) / ofNat 2 ≤ high := by
  have hmean : (a + b) / ofNat 2 = mean [a, b] := by
    rw [mean, sum_exact, List.sum_pair]
    rfl
  rw [hmean]
  refine mean_exact_bounds (List.cons_ne_nil a [b]) ?_
  intro value hvalue
  rcases List.mem_pair.mp hvalue with rfl | rfl
  · exact ha
  · exact hb

end Scalar

instance : LawfulScalar ℚ where
  le_trans h h' := by
    rw [Scalar.le_exact] at *
    exact h.trans h'
  lt_of_lt_of_le h h' := by
    rw [Scalar.lt_exact] at *
    exact h.trans_le (Scalar.le_exact.mp h')
  le_of_lt h := Scalar.le_exact.mpr (Scalar.lt_exact.mp h).le
  le_of_not_lt _ _ h := Scalar.le_exact.mpr (not_lt.mp (of_decide_eq_false h))
  not_lt_of_le h := decide_eq_false (not_lt.mpr (Scalar.le_exact.mp h))
  isNumber_of_isFinite _ := Scalar.isNumber_exact _
  arise_of_isNumber _ _ _ := rfl
  isFinite_zero := ⟨_, rfl⟩
  isFinite_one := ⟨_, rfl⟩
  zero_lt_one := by decide
  one_sub_zero_ne_zero := by
    refine decide_eq_false ?_
    rw [Scalar.zero_exact, Scalar.ofNat_exact, sub_zero, Nat.cast_one]
    exact one_ne_zero
  ofDraw_lt_one {draw} h := by
    have hpos : (0 : ℚ) < (2 ^ 53 : Nat) := Nat.cast_pos.mpr (Nat.two_pow_pos 53)
    rw [Scalar.lt_exact, Scalar.ofNat_exact, Nat.cast_one]
    exact (div_lt_one hpos).mpr (Nat.cast_lt.mpr h)

end LossyConsensus
