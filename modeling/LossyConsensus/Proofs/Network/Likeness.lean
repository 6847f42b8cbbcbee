/-
# Messages that are alike

Two lists of messages may differ in what the messages carry and still be treated
alike: the delivery models, the inboxes and the channel guarantee look at the two
ends of a message only.  So whatever two lists have in common, message by message
and with equal ends, the delivered messages, the lost ones and every inbox have
in common as well.
-/

import LossyConsensus.Proofs.Network.Slot

namespace LossyConsensus.Network

open LossyConsensus.Protocol LossyConsensus.Random

variable {R : Type} {alike : Message R → Message R → Prop} {messages others : List (Message R)}

/-- A likeness of messages under which both ends are the same. -/
def KeepsEnds (alike : Message R → Message R → Prop) : Prop :=
  ∀ message other, alike message other → message.ends = other.ends

/-- Outcomes that are alike, message by message. -/
structure Outcome.Alike (alike : Message R → Message R → Prop) (first second : Outcome R) :
    Prop where
  delivered : List.Forall₂ alike first.delivered second.delivered
  undelivered : List.Forall₂ alike first.undelivered second.undelivered

theorem forall₂_ends_iff :
    List.Forall₂ (fun message other => message.ends = other.ends) messages others ↔
      messages.map Message.ends = others.map Message.ends := by
  rw [← List.forall₂_eq_eq_eq, List.forall₂_map_left_iff, List.forall₂_map_right_iff]

theorem KeepsEnds.map_ends_eq (hkeeps : KeepsEnds alike)
    (h : List.Forall₂ alike messages others) :
    messages.map Message.ends = others.map Message.ends :=
  forall₂_ends_iff.mp (h.imp hkeeps)

/-- Choosing messages by their ends chooses alike. -/
theorem KeepsEnds.filter (hkeeps : KeepsEnds alike) (keep : Message R → Bool)
    (hkeep : ∀ message other, message.ends = other.ends → keep message = keep other)
    (h : List.Forall₂ alike messages others) :
    List.Forall₂ alike (messages.filter keep) (others.filter keep) := by
  refine List.rel_filter ?_ h
  intro message other halike
  exact Bool.eq_iff_iff.mp (hkeep message other (hkeeps message other halike))

theorem KeepsEnds.addressedTo (hkeeps : KeepsEnds alike) (receiver : Int)
    (h : List.Forall₂ alike messages others) :
    List.Forall₂ alike (addressedTo receiver messages) (addressedTo receiver others) := by
  refine hkeeps.filter _ ?_ h
  intro message other hends
  rw [(Message.ends_eq.mp hends).2]

/-! ## Delivery -/

/-- Equal flags divide alike. -/
theorem alike_divide (h : List.Forall₂ alike messages others) (flags : List Bool) :
    Outcome.Alike alike (divide messages flags) (divide others flags) := by
  induction h generalizing flags with
  | nil => exact ⟨.nil, .nil⟩
  | cons hfirst _ ih =>
      cases flags with
      | nil => exact ⟨.nil, .nil⟩
      | cons flag flags =>
          obtain ⟨hdelivered, hundelivered⟩ := ih flags
          cases flag with
          | false => exact ⟨hdelivered, .cons hfirst hundelivered⟩
          | true => exact ⟨.cons hfirst hdelivered, hundelivered⟩

variable [Scalar R]

theorem KeepsEnds.deliverFrom (hkeeps : KeepsEnds alike) (h : List.Forall₂ alike messages others)
    (assignment : Assignment) (p : R) (senders : List Int) (generator : Generator) :
    (deliverFrom assignment p messages senders generator).2 =
        (deliverFrom assignment p others senders generator).2 ∧
      Outcome.Alike alike (deliverFrom assignment p messages senders generator).1
        (deliverFrom assignment p others senders generator).1 := by
  induction senders generalizing generator with
  | nil => exact ⟨rfl, .nil, .nil⟩
  | cons sender senders ih =>
      have hbatch : List.Forall₂ alike (messages.filter fun message => message.sender == sender)
          (others.filter fun message => message.sender == sender) := by
        refine hkeeps.filter _ ?_ h
        intro message other hends
        rw [(Message.ends_eq.mp hends).1]
      simp only [Network.deliverFrom, hbatch.length_eq]
      obtain ⟨hnext, hrest⟩ := ih ((assignment.model sender).sample p
        (others.filter fun message => message.sender == sender).length generator).2
      have hfirst := alike_divide hbatch ((assignment.model sender).sample p
        (others.filter fun message => message.sender == sender).length generator).1
      exact ⟨hnext, List.rel_append hfirst.delivered hrest.delivered,
        List.rel_append hfirst.undelivered hrest.undelivered⟩

/-- Messages that are alike take the same draws and are delivered alike. -/
theorem KeepsEnds.deliver (hkeeps : KeepsEnds alike) (h : List.Forall₂ alike messages others)
    (assignment : Assignment) (p : R) (generator : Generator) :
    (deliver assignment p messages generator).2 = (deliver assignment p others generator).2 ∧
      Outcome.Alike alike (deliver assignment p messages generator).1
        (deliver assignment p others generator).1 := by
  rw [Network.deliver, Network.deliver, map_sender_eq (hkeeps.map_ends_eq h)]
  exact hkeeps.deliverFrom h assignment p _ generator

/-! ## Inboxes -/

omit [Scalar R]

/-- Outcomes that are alike fill and top up every inbox alike. -/
theorem KeepsEnds.get_topUp (hkeeps : KeepsEnds alike) {first second : Outcome R}
    (h : Outcome.Alike alike first second) (guarantee : Guarantee) (count : Nat) (id : Int) :
    List.Forall₂ alike
      ((topUp guarantee count (Inboxes.ofDelivered count first.delivered)
        first.undelivered).1.get id)
      ((topUp guarantee count (Inboxes.ofDelivered count second.delivered)
        second.undelivered).1.get id) := by
  have hdelivered := hkeeps.addressedTo id h.delivered
  by_cases hid : id ∈ processIds count
  · rw [Network.get_topUp guarantee _ _ hid, Network.get_topUp guarantee _ _ hid,
      Inboxes.get_ofDelivered, Inboxes.get_ofDelivered, hdelivered.length_eq]
    exact List.rel_append hdelivered (List.forall₂_take _ (hkeeps.addressedTo id h.undelivered))
  · rw [get_topUp_of_not_mem guarantee _ _ hid, get_topUp_of_not_mem guarantee _ _ hid,
      Inboxes.get_ofDelivered, Inboxes.get_ofDelivered]
    exact hdelivered

end LossyConsensus.Network
