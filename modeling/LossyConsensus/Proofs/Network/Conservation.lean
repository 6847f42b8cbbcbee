/-
# What delivery conserves

Messages may stand in any order and come from anyone.  Delivery takes them sender by
sender: the batch of a sender is divided by its flags, and what arrives of it and what is
lost keep their order.  A sender whose model broadcasts has one flag for its whole batch.

How many draws are taken is told from the senders alone: one for every message, or one for
the whole batch of a sender that broadcasts.
-/

import LossyConsensus.Proofs.Network.Enumeration
import Mathlib.Data.Finset.Card

namespace LossyConsensus.Network

open LossyConsensus.Random

variable {R : Type}

/-- The messages of one sender. -/
def sentBy (sender : Int) (messages : List (Message R)) : List (Message R) :=
  messages.filter fun message => message.sender == sender

/-- Whether one draw decides for all messages of a sender. -/
def Model.isBroadcast : Model → Bool
  | .broadcast _ => true
  | _ => false

/-- The draws that a model takes for a batch. -/
def Model.drawCount (model : Model) (size : Nat) : Nat :=
  if model.isBroadcast then min 1 size else size

/-- The draws taken for messages with the given senders: one for each message of those that
do not broadcast, and one for each of those that do. -/
def Assignment.drawCount (assignment : Assignment) (senders : List Int) : Nat :=
  senders.countP (fun sender => !(assignment.model sender).isBroadcast) +
    (senders.filter fun sender => (assignment.model sender).isBroadcast).toFinset.card

namespace Outcome

/-- The batch of a sender, divided by the flags of its messages: each of them is delivered or
lost as its flag says, and stands among the others in the order that it had. -/
structure IsDivided (outcome : Outcome R) (outbound : List (Message R)) (sender : Int)
    (flags : List Bool) : Prop where
  length : flags.length = (sentBy sender outbound).length
  delivered : sentBy sender outcome.delivered = flagged (sentBy sender outbound) flags
  undelivered : sentBy sender outcome.undelivered =
    flagged (sentBy sender outbound) (flags.map (!·))

/-- What becomes of messages that are delivered.  None is lost from sight and none is
added.  Both lists have their senders in ascending order, the batch of each of them is
divided, and that of a sender that broadcasts lies in one list as a whole. -/
structure Conserves (outcome : Outcome R) (assignment : Assignment)
    (outbound : List (Message R)) : Prop where
  conserved : (outcome.delivered ++ outcome.undelivered).Perm outbound
  ascending : outcome.delivered.Pairwise (·.sender ≤ ·.sender) ∧
    outcome.undelivered.Pairwise (·.sender ≤ ·.sender)
  divided : ∀ sender, ∃ flags, outcome.IsDivided outbound sender flags
  together : ∀ sender, (assignment.model sender).isBroadcast = true →
    sentBy sender outcome.delivered = [] ∨ sentBy sender outcome.undelivered = []

end Outcome

/-! ## Messages of one sender -/

variable {sender : Int} {messages : List (Message R)}

theorem mem_sentBy {message : Message R} :
    message ∈ sentBy sender messages ↔ message ∈ messages ∧ message.sender = sender := by
  rw [sentBy, List.mem_filter, beq_iff_eq]

theorem sentBy_append (sender : Int) (first second : List (Message R)) :
    sentBy sender (first ++ second) = sentBy sender first ++ sentBy sender second :=
  List.filter_append ..

theorem sentBy_eq_self (h : ∀ message ∈ messages, message.sender = sender) :
    sentBy sender messages = messages :=
  List.filter_eq_self.mpr fun message hmem => beq_iff_eq.mpr (h message hmem)

theorem sentBy_eq_nil (h : ∀ message ∈ messages, message.sender ≠ sender) :
    sentBy sender messages = [] :=
  List.filter_eq_nil_iff.mpr fun message hmem heq => h message hmem (beq_iff_eq.mp heq)

theorem flagged_sublist {α : Type} (items : List α) (flags : List Bool) :
    (flagged items flags).Sublist items := by
  induction items generalizing flags with
  | nil => exact List.Sublist.slnil
  | cons item items ih =>
      cases flags with
      | nil => exact List.nil_sublist _
      | cons flag flags =>
          cases flag with
          | true => exact (ih flags).cons_cons item
          | false => exact (ih flags).cons item

theorem flagged_replicate_false {α : Type} (items : List α) (count : Nat) :
    flagged items (List.replicate count false) = [] := by
  rw [flagged, List.map_eq_nil_iff, List.filter_eq_nil_iff]
  rintro ⟨item, flag⟩ hmem
  rw [List.eq_of_mem_replicate (List.of_mem_zip hmem).2]
  exact Bool.false_ne_true

/-- A batch with one flag lands in one list. -/
theorem flagged_replicate_eq_nil {α : Type} (items : List α) (count : Nat) (flag : Bool) :
    flagged items (List.replicate count flag) = [] ∨
      flagged items ((List.replicate count flag).map (!·)) = [] := by
  rw [List.map_replicate]
  cases flag with
  | true => exact .inr (flagged_replicate_false items count)
  | false => exact .inl (flagged_replicate_false items count)

/-- What is left of a batch, by whatever flags, is of its sender. -/
theorem sender_of_mem_flagged {flags : List Bool} {message : Message R}
    (h : message ∈ flagged (sentBy sender messages) flags) : message.sender = sender :=
  (mem_sentBy.mp ((flagged_sublist _ _).subset h)).2

/-- What is left of a batch may stand before messages of later senders. -/
theorem pairwise_flagged_append (flags : List Bool) {later : List (Message R)}
    (hlater : later.Pairwise (·.sender ≤ ·.sender))
    (hsenders : ∀ message ∈ later, sender < message.sender) :
    (flagged (sentBy sender messages) flags ++ later).Pairwise (·.sender ≤ ·.sender) := by
  refine List.pairwise_append.mpr ⟨?_, hlater, ?_⟩
  · refine List.pairwise_of_forall_mem_list fun first hfirst second hsecond => ?_
    rw [sender_of_mem_flagged hfirst, sender_of_mem_flagged hsecond]
  · intro first hfirst second hsecond
    rw [sender_of_mem_flagged hfirst]
    exact Int.le_of_lt (hsenders second hsecond)

/-! ## Draws -/

theorem draws_add (count more : Nat) (generator : Generator) :
    (generator.draws (count + more)).2 = ((generator.draws count).2.draws more).2 := by
  induction count generalizing generator with
  | zero => rw [Nat.zero_add, Generator.draws]
  | succ count ih =>
      rw [Nat.succ_add, Generator.draws, Generator.draws]
      exact ih generator.draw.2

variable [Scalar R]

theorem sample_snd (model : Model) (p : R) (size : Nat) (generator : Generator) :
    (model.sample p size generator).2 = (generator.draws (model.drawCount size)).2 := by
  cases model with
  | standard => rfl
  | guaranteed minMessages scope => rfl
  | broadcast mode =>
      cases size with
      | zero => rfl
      | succ size =>
          have hone : (Model.broadcast mode).drawCount (size + 1) = 1 :=
            Nat.min_eq_left (Nat.le_add_left 1 size)
          rw [hone]
          rfl

/-- Who broadcasts has one flag for the whole batch. -/
theorem exists_flag_of_isBroadcast {model : Model} (h : model.isBroadcast = true) (p : R)
    (size : Nat) (generator : Generator) :
    ∃ flag, (model.sample p size generator).1 = List.replicate size flag := by
  cases model with
  | standard => cases h
  | guaranteed minMessages scope => cases h
  | broadcast mode =>
      cases size with
      | zero => exact ⟨true, rfl⟩
      | succ size => exact ⟨_, rfl⟩

variable {assignment : Assignment} {outbound : List (Message R)} {senders : List Int}

/-- One step of a delivery: the batch of the first sender is divided by the flags sampled for
it, and the others follow. -/
theorem deliverFrom_cons (assignment : Assignment) (p : R) (outbound : List (Message R))
    (sender : Int) (senders : List Int) (generator : Generator) :
    ∃ flags next, (assignment.model sender).sample p (sentBy sender outbound).length generator =
        (flags, next) ∧
      deliverFrom assignment p outbound (sender :: senders) generator =
        (⟨flagged (sentBy sender outbound) flags ++
            (deliverFrom assignment p outbound senders next).1.delivered,
          flagged (sentBy sender outbound) (flags.map (!·)) ++
            (deliverFrom assignment p outbound senders next).1.undelivered⟩,
          (deliverFrom assignment p outbound senders next).2) := by
  refine ⟨_, _, rfl, ?_⟩
  simp only [deliverFrom, divide_eq_flagged]
  rfl

/-- The draws are taken batch by batch. -/
theorem deliverFrom_snd (p : R) (senders : List Int) (generator : Generator) :
    (deliverFrom assignment p outbound senders generator).2 =
      (generator.draws (senders.map fun sender =>
        (assignment.model sender).drawCount (sentBy sender outbound).length).sum).2 := by
  induction senders generalizing generator with
  | nil => rfl
  | cons sender senders ih =>
      obtain ⟨flags, next, hsample, hdeliver⟩ :=
        deliverFrom_cons assignment p outbound sender senders generator
      rw [hdeliver, List.map_cons, List.sum_cons, draws_add, ← sample_snd _ p, hsample]
      exact ih next

omit [Scalar R] in
/-- The messages of a batch that count for one draw each: all of them, or none where the
sender broadcasts. -/
theorem countP_sentBy (sender : Int) (messages : List (Message R)) :
    (sentBy sender messages).countP (fun message =>
        !(assignment.model message.sender).isBroadcast) =
      if (assignment.model sender).isBroadcast then 0 else (sentBy sender messages).length := by
  split
  · next hbroadcast =>
    refine List.countP_eq_zero.mpr fun message hmem => ?_
    rw [(mem_sentBy.mp hmem).2, hbroadcast]
    exact Bool.false_ne_true
  · next hsingle =>
    refine List.countP_eq_length.mpr fun message hmem => ?_
    rw [(mem_sentBy.mp hmem).2, Bool.eq_false_iff.mpr hsingle]
    rfl

omit [Scalar R] in
/-- Batches that are not empty take a draw for each message that is not broadcast and one
for each sender that broadcasts. -/
theorem sum_drawCount (hnodup : senders.Nodup)
    (hsends : ∀ sender ∈ senders, sentBy sender outbound ≠ []) :
    (senders.map fun sender =>
        (assignment.model sender).drawCount (sentBy sender outbound).length).sum =
      (outbound.filter fun message => senders.contains message.sender).countP (fun message =>
          !(assignment.model message.sender).isBroadcast) +
        senders.countP fun sender => (assignment.model sender).isBroadcast := by
  induction senders with
  | nil => simp
  | cons sender senders ih =>
      obtain ⟨hfresh, hnodup⟩ := List.nodup_cons.mp hnodup
      obtain ⟨hfirst, hsends⟩ := List.forall_mem_cons.mp hsends
      have hpositive := List.length_pos_iff.mpr hfirst
      have hsplit := (filter_senders_perm outbound hfresh).countP_eq fun message =>
        !(assignment.model message.sender).isBroadcast
      rw [List.countP_append, ← sentBy, countP_sentBy] at hsplit
      rw [List.map_cons, List.sum_cons, ih hnodup hsends, List.countP_cons, ← hsplit,
        Model.drawCount]
      split_ifs <;> omega

omit [Scalar R] in
/-- Summed over all who send, the draws of the batches are those told from the senders. -/
theorem sum_drawCount_asSet (assignment : Assignment) (outbound : List (Message R)) :
    ((Topology.asSet (outbound.map (·.sender))).map fun sender =>
        (assignment.model sender).drawCount (sentBy sender outbound).length).sum =
      assignment.drawCount (outbound.map (·.sender)) := by
  let senders := Topology.asSet (outbound.map (·.sender))
  have hsends : ∀ sender ∈ senders, sentBy sender outbound ≠ [] := by
    intro sender hsender
    obtain ⟨message, hmessage, hsame⟩ := List.mem_map.mp (Topology.mem_asSet.mp hsender)
    exact List.ne_nil_of_mem (mem_sentBy.mpr ⟨hmessage, hsame⟩)
  have hall : outbound.filter (fun message => senders.contains message.sender) = outbound := by
    refine List.filter_eq_self.mpr fun message hmem => ?_
    rw [List.contains_iff_mem, Topology.mem_asSet]
    exact List.mem_map_of_mem hmem
  have hcard : senders.countP (fun sender => (assignment.model sender).isBroadcast) =
      ((outbound.map (·.sender)).filter fun sender =>
        (assignment.model sender).isBroadcast).toFinset.card := by
    rw [List.countP_eq_length_filter,
      ← List.toFinset_card_of_nodup ((Topology.nodup_asSet _).filter _)]
    congr 1
    ext sender
    rw [List.mem_toFinset, List.mem_toFinset, List.mem_filter, List.mem_filter,
      Topology.mem_asSet]
  rw [sum_drawCount (Topology.nodup_asSet _) hsends, hall, hcard, Assignment.drawCount,
    List.countP_map]
  rfl

/-! ## Batches -/

/-- What is delivered from some senders, or lost, is of one of them. -/
theorem sender_mem_of_mem_deliverFrom {p : R} (hnodup : senders.Nodup) {generator : Generator}
    {message : Message R}
    (h : message ∈ (deliverFrom assignment p outbound senders generator).1.delivered ∨
      message ∈ (deliverFrom assignment p outbound senders generator).1.undelivered) :
    message.sender ∈ senders := by
  have hmem := (deliverFrom_perm assignment p outbound hnodup generator).mem_iff.mp
    (List.mem_append.mpr h)
  exact List.contains_iff_mem.mp (List.mem_filter.mp hmem).2

theorem ascending_deliverFrom (p : R) (hascending : senders.Pairwise (· < ·))
    (generator : Generator) :
    (deliverFrom assignment p outbound senders generator).1.delivered.Pairwise
        (·.sender ≤ ·.sender) ∧
      (deliverFrom assignment p outbound senders generator).1.undelivered.Pairwise
        (·.sender ≤ ·.sender) := by
  induction senders generalizing generator with
  | nil => exact ⟨List.Pairwise.nil, List.Pairwise.nil⟩
  | cons sender senders ih =>
      obtain ⟨hleast, hrest⟩ := List.pairwise_cons.mp hascending
      have hnodup : senders.Nodup := hrest.imp fun h => Int.ne_of_lt h
      obtain ⟨flags, next, -, hdeliver⟩ :=
        deliverFrom_cons assignment p outbound sender senders generator
      obtain ⟨hdelivered, hundelivered⟩ := ih hrest next
      rw [hdeliver]
      refine ⟨pairwise_flagged_append _ hdelivered ?_, pairwise_flagged_append _ hundelivered ?_⟩
      · exact fun _ hmem => hleast _ (sender_mem_of_mem_deliverFrom hnodup (.inl hmem))
      · exact fun _ hmem => hleast _ (sender_mem_of_mem_deliverFrom hnodup (.inr hmem))

/-- Each batch is divided; where the sender broadcasts, all of its flags are the same. -/
theorem exists_isDivided (p : R) (hnodup : senders.Nodup) (hsender : sender ∈ senders)
    (generator : Generator) :
    ∃ flags, (deliverFrom assignment p outbound senders generator).1.IsDivided outbound sender
        flags ∧
      ((assignment.model sender).isBroadcast = true →
        ∃ flag, flags = List.replicate (sentBy sender outbound).length flag) := by
  induction senders generalizing generator with
  | nil => cases hsender
  | cons first senders ih =>
      obtain ⟨hfresh, hrest⟩ := List.nodup_cons.mp hnodup
      obtain ⟨flags, next, hsample, hdeliver⟩ :=
        deliverFrom_cons assignment p outbound first senders generator
      rw [hdeliver]
      by_cases hfirst : sender = first
      · subst hfirst
        have hflags : ((assignment.model sender).sample p (sentBy sender outbound).length
            generator).1 = flags := congrArg Prod.fst hsample
        have hself : ∀ flags, sentBy sender (flagged (sentBy sender outbound) flags) =
            flagged (sentBy sender outbound) flags :=
          fun flags => sentBy_eq_self fun _ hmem => sender_of_mem_flagged hmem
        have hlater : ∀ {message : Message R}, message.sender ∈ senders →
            message.sender ≠ sender :=
          fun hmem heq => hfresh (heq ▸ hmem)
        refine ⟨flags, ⟨?_, ?_, ?_⟩, ?_⟩
        · rw [← hflags, length_sample]
        · rw [sentBy_append, hself, sentBy_eq_nil fun _ hmem =>
            hlater (sender_mem_of_mem_deliverFrom hrest (.inl hmem)), List.append_nil]
        · rw [sentBy_append, hself, sentBy_eq_nil fun _ hmem =>
            hlater (sender_mem_of_mem_deliverFrom hrest (.inr hmem)), List.append_nil]
        · intro hbroadcast
          rw [← hflags]
          exact exists_flag_of_isBroadcast hbroadcast _ _ _
      · have hnone : ∀ flags, sentBy sender (flagged (sentBy first outbound) flags) = [] :=
          fun flags => sentBy_eq_nil fun _ hmem heq =>
            hfirst (heq.symm.trans (sender_of_mem_flagged hmem))
        obtain ⟨own, hdivided, hsame⟩ :=
          ih hrest ((List.mem_cons.mp hsender).resolve_left hfirst) next
        refine ⟨own, ⟨hdivided.length, ?_, ?_⟩, hsame⟩
        · rw [sentBy_append, hnone, List.nil_append]
          exact hdivided.delivered
        · rw [sentBy_append, hnone, List.nil_append]
          exact hdivided.undelivered

/-- So is the batch of anyone, whether sending or not. -/
theorem exists_isDivided_deliver (assignment : Assignment) (p : R) (outbound : List (Message R))
    (generator : Generator) (sender : Int) :
    ∃ flags, (deliver assignment p outbound generator).1.IsDivided outbound sender flags ∧
      ((assignment.model sender).isBroadcast = true →
        ∃ flag, flags = List.replicate (sentBy sender outbound).length flag) := by
  by_cases hsends : sender ∈ Topology.asSet (outbound.map (·.sender))
  · exact exists_isDivided p (Topology.nodup_asSet _) hsends generator
  · have hnone : sentBy sender outbound = [] :=
      sentBy_eq_nil fun message hmem heq =>
        hsends (Topology.mem_asSet.mpr (List.mem_map.mpr ⟨message, hmem, heq⟩))
    have hleft := (deliver_perm assignment p outbound generator).filter fun message =>
      message.sender == sender
    rw [← sentBy, ← sentBy, hnone, sentBy_append, List.perm_nil, List.append_eq_nil_iff] at hleft
    refine ⟨[], ⟨?_, ?_, ?_⟩, fun _ => ⟨true, ?_⟩⟩
    · rw [hnone]
      rfl
    · rw [hnone, hleft.1]
      rfl
    · rw [hnone, hleft.2]
      rfl
    · rw [hnone]
      rfl

theorem conserves_deliver (assignment : Assignment) (p : R) (outbound : List (Message R))
    (generator : Generator) :
    (deliver assignment p outbound generator).1.Conserves assignment outbound where
  conserved := deliver_perm assignment p outbound generator
  ascending := ascending_deliverFrom p (Topology.pairwise_asSet _) generator
  divided sender := by
    obtain ⟨flags, hdivided, _⟩ := exists_isDivided_deliver assignment p outbound generator sender
    exact ⟨flags, hdivided⟩
  together sender hbroadcast := by
    obtain ⟨flags, hdivided, hsame⟩ :=
      exists_isDivided_deliver assignment p outbound generator sender
    obtain ⟨flag, rfl⟩ := hsame hbroadcast
    rw [hdivided.delivered, hdivided.undelivered]
    exact flagged_replicate_eq_nil _ _ flag

/-- Delivery conserves messages, whoever sends them and in whatever order: each of them is
delivered or lost, sender by sender and within a sender in the order that they had, and a
sender that broadcasts has all its messages delivered or all of them lost.  The generator
moves on by as many draws as are told from the senders, whatever the probability is and
whatever the messages say. -/
theorem deliver_conserves_messages_and_draws (assignment : Assignment) (p : R)
    (outbound : List (Message R)) (generator : Generator) :
    (deliver assignment p outbound generator).1.Conserves assignment outbound ∧
      (deliver assignment p outbound generator).2 =
        (generator.draws (assignment.drawCount (outbound.map (·.sender)))).2 := by
  refine ⟨conserves_deliver assignment p outbound generator, ?_⟩
  rw [deliver, deliverFrom_snd, sum_drawCount_asSet]

/-- The first of three processes broadcasts, and someone who is no process sends as well.  Of
five messages, out of order, the two that are broadcast take one draw together, and the other
three one each. -/
theorem mixedFive_conserved :
    let assignment : Assignment := ⟨3, .standard, [(1, .broadcast .uniform)]⟩
    let outbound : List (Message Float) :=
      [⟨3, 1, 5⟩, ⟨1, 2, 6⟩, ⟨7, 2, 7⟩, ⟨3, 2, 5⟩, ⟨1, 3, 6⟩]
    let half : Float := Scalar.ofDraw (2 ^ (52 : Nat))
    (deliver assignment half outbound ⟨6, 1⟩).1.Conserves assignment outbound ∧
      (deliver assignment half outbound ⟨6, 1⟩).1 =
        ⟨[⟨1, 2, 6⟩, ⟨1, 3, 6⟩, ⟨3, 2, 5⟩], [⟨3, 1, 5⟩, ⟨7, 2, 7⟩]⟩ ∧
      (deliver assignment half outbound ⟨6, 1⟩).2 = (Generator.draws 4 ⟨6, 1⟩).2 := by
  intro assignment outbound half
  obtain ⟨hconserves, hdraws⟩ :=
    deliver_conserves_messages_and_draws assignment half outbound ⟨6, 1⟩
  have hcount : assignment.drawCount (outbound.map (·.sender)) = 4 := by decide
  rw [hcount] at hdraws
  exact ⟨hconserves, by decide +kernel, hdraws⟩

end LossyConsensus.Network
