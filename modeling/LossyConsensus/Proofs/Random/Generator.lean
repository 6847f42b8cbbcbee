/-
# The range of draws

An output of the generator is a word of 64 bits, whatever its state is, and a
draw is the upper 53 bits of it.
-/

import LossyConsensus.Random.Generator

namespace LossyConsensus.Random.Generator

-- Powers are those of the core library, whatever algebra is imported beside it.
attribute [local instance (2000)] instPowNat

theorem rotateRight_lt {word : Nat} (h : word < 2 ^ (64 : Nat)) (count : Nat) :
    rotateRight word count < 2 ^ (64 : Nat) := by
  refine Nat.or_lt_two_pow ?_ (Nat.mod_lt _ (Nat.two_pow_pos 64))
  rw [Nat.shiftRight_eq_div_pow]
  exact Nat.lt_of_le_of_lt (Nat.div_le_self _ _) h

theorem next_lt (generator : Generator) : generator.next.1 < 2 ^ (64 : Nat) := by
  have hstate : generator.advance.state < 2 ^ (128 : Nat) := Nat.mod_lt _ (Nat.two_pow_pos 128)
  refine rotateRight_lt (Nat.xor_lt_two_pow ?_ (Nat.mod_lt _ (Nat.two_pow_pos 64))) _
  rw [Nat.shiftRight_eq_div_pow]
  omega

/-- A draw has 53 bits. -/
theorem draw_lt (generator : Generator) : generator.draw.1 < 2 ^ (53 : Nat) := by
  have hword := next_lt generator
  change generator.next.1 >>> 11 < 2 ^ (53 : Nat)
  rw [Nat.shiftRight_eq_div_pow]
  omega

theorem draws_lt (count : Nat) (generator : Generator) :
    ∀ draw ∈ (generator.draws count).1, draw < 2 ^ (53 : Nat) := by
  induction count generalizing generator with
  | zero => simp [draws]
  | succ count ih => exact List.forall_mem_cons.mpr ⟨draw_lt generator, ih _⟩

end LossyConsensus.Random.Generator
