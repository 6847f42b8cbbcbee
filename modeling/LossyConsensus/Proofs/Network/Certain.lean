/-
# Delivery without loss

Every draw stands for less than one, so at probability one no delivery model
loses a message, and an inbox holds exactly what was sent to its process.
-/

import LossyConsensus.Proofs.Network.Delivery
import LossyConsensus.Proofs.Network.Inbox
import LossyConsensus.Proofs.Random.Generator
import LossyConsensus.Proofs.Scalar.Law

namespace LossyConsensus.Network

open LossyConsensus.Random

variable {R : Type} [Scalar R] [LawfulScalar R]

theorem sample_one (model : Model) (count : Nat) (generator : Generator) :
    (model.sample (Scalar.ofNat 1 : R) count generator).1 = List.replicate count true := by
  have hdraws : ((generator.draws count).1.map fun draw =>
      Scalar.lt (Scalar.ofDraw draw) (Scalar.ofNat 1 : R)) = List.replicate count true := by
    rw [List.eq_replicate_iff, List.length_map, length_draws]
    refine ⟨rfl, ?_⟩
    intro flag hflag
    obtain ⟨draw, hdraw, rfl⟩ := List.mem_map.mp hflag
    exact LawfulScalar.ofDraw_lt_one (Generator.draws_lt count generator draw hdraw)
  cases model with
  | standard => exact hdraws
  | guaranteed minMessages scope => exact hdraws
  | broadcast mode =>
      rw [Model.sample]
      split
      · next hnone => rw [beq_iff_eq.mp hnone, List.replicate_zero]
      · exact congrArg (List.replicate count)
          (LawfulScalar.ofDraw_lt_one (Generator.draw_lt generator))

omit [Scalar R] [LawfulScalar R] in
theorem undelivered_divide (batch : List (Message R)) :
    (divide batch (List.replicate batch.length true)).undelivered = [] := by
  induction batch with
  | nil => rfl
  | cons message batch ih => exact ih

theorem undelivered_deliverFrom (assignment : Assignment) (outbound : List (Message R))
    (senders : List Int) (generator : Generator) :
    (deliverFrom assignment (Scalar.ofNat 1) outbound senders generator).1.undelivered = [] := by
  induction senders generalizing generator with
  | nil => rfl
  | cons sender senders ih =>
      simp only [deliverFrom, sample_one, undelivered_divide, ih, List.append_nil]

/-- At probability one everything that is sent is delivered. -/
theorem deliver_one_perm (assignment : Assignment) (outbound : List (Message R))
    (generator : Generator) :
    (deliver assignment (Scalar.ofNat 1) outbound generator).1.delivered.Perm outbound := by
  have hperm := deliver_perm assignment (Scalar.ofNat 1) outbound generator
  have hnone : (deliver assignment (Scalar.ofNat 1) outbound generator).1.undelivered = [] :=
    undelivered_deliverFrom assignment outbound _ generator
  rwa [hnone, List.append_nil] at hperm

end LossyConsensus.Network
