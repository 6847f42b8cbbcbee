/-
# Shares

A part of a whole has a quotient: whatever the size of the two integers, the
quotient is not beyond the range of doubles.
-/

import LossyConsensus.Decimal.Quotient
import Mathlib.Data.Nat.Log

namespace LossyConsensus.Decimal

-- Powers are those of the core library, whatever algebra is imported beside it.
attribute [local instance (2000)] instPowNat

variable {num den : Nat}

/-- Rounding does not lead beyond a natural number. -/
theorem roundDiv_le {bound : Nat} (hden : 0 < den) (h : num ≤ bound * den) :
    roundDiv num den ≤ bound := by
  have hlow : num / den ≤ bound := Nat.div_le_of_le_mul (Nat.mul_comm bound den ▸ h)
  rcases Nat.lt_or_eq_of_le hlow with hless | heq
  · rw [roundDiv]
    split_ifs <;> omega
  · have hexact : num % den = 0 := by
      have hsum := Nat.div_add_mod' num den
      rw [heq] at hsum
      omega
    rw [roundDiv, if_pos (by omega)]
    exact hlow

theorem leadingBit_nonpos (h : num ≤ den) : leadingBit num den ≤ 0 := by
  have hlog : num.log2 ≤ den.log2 := by
    rw [Nat.log2_eq_log_two, Nat.log2_eq_log_two]
    exact Nat.log_mono_right h
  rw [leadingBit]
  dsimp only
  split_ifs <;> omega

/-- A share is at most one, so its significand is no greater than the power of two that
its exponent divides by. -/
theorem binaryQuotient_le (hden : 0 < den) (h : num ≤ den) :
    ((binaryQuotient num den).1.log2 : Int) + (binaryQuotient num den).2 ≤ 0 := by
  have hleading := leadingBit_nonpos h
  obtain ⟨places, hplaces⟩ : ∃ places : Nat, max (leadingBit num den - 52) (-1074) = -places :=
    ⟨(-max (leadingBit num den - 52) (-1074)).toNat, by omega⟩
  have hsignificand : roundDiv (num * 2 ^ places) den ≤ 2 ^ places := by
    refine roundDiv_le hden ?_
    rw [Nat.mul_comm]
    exact Nat.mul_le_mul_left _ h
  have hlog : (roundDiv (num * 2 ^ places) den).log2 ≤ places := by
    have hmono := Nat.log_mono_right (b := 2) hsignificand
    rwa [Nat.log_pow (by omega), ← Nat.log2_eq_log_two] at hmono
  rw [binaryQuotient]
  dsimp only
  rw [hplaces, if_neg (by omega), Int.neg_neg, Int.toNat_natCast]
  omega

/-- The quotient of a part and the whole is in range. -/
theorem exists_integerQuotient {part whole : Int} (hpart : 0 ≤ part) (hle : part ≤ whole)
    (hwhole : 0 < whole) : ∃ share, integerQuotient part whole = .ok share := by
  rw [integerQuotient]
  split
  · exact ⟨0.0, rfl⟩
  · have hrange := binaryQuotient_le (by omega : 0 < whole.natAbs)
      (by omega : part.natAbs ≤ whole.natAbs)
    dsimp only
    rw [if_neg (by omega)]
    exact ⟨_, rfl⟩

end LossyConsensus.Decimal
