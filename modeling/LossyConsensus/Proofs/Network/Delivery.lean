/-
# What delivery does with messages

A delivery model decides about a batch by flags, one for each message, and the
batches of all senders are divided one after the other.  Whatever the draws
are, every message ends up either among those delivered or among those lost,
and none is made up.
-/

import LossyConsensus.Network.Delivery
import Mathlib.Data.List.Perm.Basic

namespace LossyConsensus.Network

open LossyConsensus.Random

variable {R : Type}

/-! ## Sets of ids -/

namespace Topology

theorem mem_insertId {id other : Int} {ids : List Int} :
    other ∈ insertId id ids ↔ other = id ∨ other ∈ ids := by
  induction ids with
  | nil => simp [insertId]
  | cons first rest ih =>
      rw [insertId]
      split
      · exact List.mem_cons
      · split
        · next heq =>
          obtain rfl : id = first := by simpa using heq
          simp
        · rw [List.mem_cons, ih, List.mem_cons]
          exact or_left_comm

theorem mem_asSet {id : Int} {ids : List Int} : id ∈ asSet ids ↔ id ∈ ids := by
  induction ids with
  | nil => simp [asSet]
  | cons first rest ih =>
      rw [asSet, List.foldr_cons, ← asSet, mem_insertId, ih, List.mem_cons]

theorem pairwise_insertId {id : Int} {ids : List Int} (h : ids.Pairwise (· < ·)) :
    (insertId id ids).Pairwise (· < ·) := by
  induction ids with
  | nil => simp [insertId]
  | cons first rest ih =>
      obtain ⟨hfirst, hrest⟩ := List.pairwise_cons.mp h
      rw [insertId]
      split
      · next hlt =>
        refine List.pairwise_cons.mpr ⟨?_, h⟩
        intro other hother
        rcases List.mem_cons.mp hother with rfl | hother
        · exact hlt
        · exact Int.lt_trans hlt (hfirst other hother)
      · next hnlt =>
        split
        · exact h
        · next hne =>
          refine List.pairwise_cons.mpr ⟨?_, ih hrest⟩
          intro other hother
          rcases mem_insertId.mp hother with rfl | hother
          · have : other ≠ first := by simpa using hne
            omega
          · exact hfirst other hother

/-- The members of a set stand in ascending order. -/
theorem pairwise_asSet (ids : List Int) : (asSet ids).Pairwise (· < ·) := by
  induction ids with
  | nil => exact List.Pairwise.nil
  | cons first rest ih => exact pairwise_insertId ih

theorem nodup_asSet (ids : List Int) : (asSet ids).Nodup :=
  (pairwise_asSet ids).imp fun h => Int.ne_of_lt h

end Topology

/-! ## Batches -/

variable [Scalar R]

theorem length_draws (count : Nat) (generator : Generator) :
    (generator.draws count).1.length = count := by
  induction count generalizing generator with
  | zero => rfl
  | succ count ih => simp [Generator.draws, ih]

/-- A model decides about every message of a batch. -/
theorem length_sample (model : Model) (p : R) (count : Nat) (generator : Generator) :
    (model.sample p count generator).1.length = count := by
  cases model with
  | standard => simp [Model.sample, length_draws]
  | guaranteed minMessages scope => simp [Model.sample, length_draws]
  | broadcast mode =>
      rw [Model.sample]
      split
      · next h => simpa using (beq_iff_eq.mp h).symm
      · simp

omit [Scalar R] in
/-- A batch is divided into what arrives and what is lost. -/
theorem divide_perm (batch : List (Message R)) {flags : List Bool}
    (h : flags.length = batch.length) :
    ((divide batch flags).delivered ++ (divide batch flags).undelivered).Perm batch := by
  induction batch generalizing flags with
  | nil => simp [divide]
  | cons message batch ih =>
      cases flags with
      | nil => simp at h
      | cons flag flags =>
          have hlength : flags.length = batch.length := by simpa using h
          have hrest := ih hlength
          cases flag with
          | true => exact hrest.cons message
          | false => exact List.perm_middle.trans (hrest.cons message)

/-! ## All batches -/

/-- Messages of several senders are those of the first one and those of the
others. -/
theorem filter_senders_perm {R : Type} (messages : List (Message R)) {sender : Int}
    {senders : List Int} (hfresh : sender ∉ senders) :
    (messages.filter (fun message => message.sender == sender) ++
        messages.filter fun message => senders.contains message.sender).Perm
      (messages.filter fun message => (sender :: senders).contains message.sender) := by
  have hsplit := List.filter_append_perm (fun message : Message R => message.sender == sender)
    (messages.filter fun message => (sender :: senders).contains message.sender)
  rw [List.filter_filter, List.filter_filter] at hsplit
  refine (List.Perm.of_eq ?_).trans hsplit
  congr 1
  · refine List.filter_congr fun message _ => ?_
    by_cases heq : message.sender = sender <;> simp [heq]
  · refine List.filter_congr fun message _ => ?_
    by_cases heq : message.sender = sender
    · simpa [heq] using hfresh
    · simp [heq]

/-- The lists of two outcomes, joined, hold what the outcomes hold. -/
theorem append_outcomes_perm {R : Type} (first second : Outcome R) :
    (first.delivered ++ second.delivered ++ (first.undelivered ++ second.undelivered)).Perm
      (first.delivered ++ first.undelivered ++ (second.delivered ++ second.undelivered)) := by
  simp only [List.append_assoc]
  refine List.Perm.append_left first.delivered ?_
  rw [← List.append_assoc, ← List.append_assoc]
  exact List.perm_append_comm.append_right second.undelivered

theorem deliverFrom_perm (assignment : Assignment) (p : R) (outbound : List (Message R))
    {senders : List Int} (hnodup : senders.Nodup) (generator : Generator) :
    ((deliverFrom assignment p outbound senders generator).1.delivered ++
        (deliverFrom assignment p outbound senders generator).1.undelivered).Perm
      (outbound.filter fun message => senders.contains message.sender) := by
  induction senders generalizing generator with
  | nil => simp [deliverFrom]
  | cons sender senders ih =>
      obtain ⟨hfresh, hnodup⟩ := List.nodup_cons.mp hnodup
      let batch := outbound.filter fun message => message.sender == sender
      have hbatch := divide_perm batch
        (length_sample (assignment.model sender) p batch.length generator)
      have hrest := ih hnodup ((assignment.model sender).sample p batch.length generator).2
      exact (append_outcomes_perm _ _).trans
        ((hbatch.append hrest).trans (filter_senders_perm outbound hfresh))

/-- Delivery divides the messages of a round: none is lost from sight and none
is added. -/
theorem deliver_perm (assignment : Assignment) (p : R) (outbound : List (Message R))
    (generator : Generator) :
    ((deliver assignment p outbound generator).1.delivered ++
        (deliver assignment p outbound generator).1.undelivered).Perm outbound := by
  refine (deliverFrom_perm assignment p outbound (Topology.nodup_asSet _) generator).trans ?_
  refine List.Perm.of_eq (List.filter_eq_self.mpr ?_)
  intro message hmem
  rw [List.contains_iff_mem, Topology.mem_asSet]
  exact List.mem_map_of_mem hmem

end LossyConsensus.Network
