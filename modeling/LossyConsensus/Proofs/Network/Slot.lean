/-
# Slots

A slot is a sender with a receiver.  Which slots a round fills depends on the
two ends of its messages and on the draws, and on nothing that the messages
carry: two floods of different values are cut down by topology and faults to the
same slots, the delivery models take the same draws for them, and a greater
probability lets every slot arrive that a smaller one does.
-/

import LossyConsensus.Proofs.Network.Delivery
import LossyConsensus.Proofs.Network.Fault
import LossyConsensus.Proofs.Network.Inbox
import LossyConsensus.Proofs.Scalar.Law

namespace LossyConsensus.Network

open LossyConsensus.Protocol LossyConsensus.Random

variable {R : Type}

/-! ## Messages with the same ends -/

theorem map_ends_floodFrom (count : Nat) (sender : Int) (payload : R) :
    (floodFrom count sender payload).map Message.ends =
      ((processIds count).filter (· != sender)).map fun receiver => (sender, receiver) := by
  rw [floodFrom, List.map_map]
  rfl

/-- The slots between `count` processes: the senders in ascending order, and for each
of them the receivers. -/
def directedSlots (count : Nat) : List (Int × Int) :=
  (processIds count).flatMap fun sender =>
    ((processIds count).filter (· != sender)).map fun receiver => (sender, receiver)

/-- The numbers of the processes are those that stand beside their values. -/
theorem map_snd_zipIdx (values : List R) :
    ((values.zipIdx 1).map fun pair => (pair.2 : Int)) = processIds values.length := by
  have hnumbers : ((values.zipIdx 1).map fun pair => (pair.2 : Int)) =
      ((values.zipIdx 1).map Prod.snd).map Int.ofNat := by
    rw [List.map_map]
    rfl
  rw [hnumbers, List.zipIdx_map_snd, List.range'_eq_map_range, List.map_map, processIds]
  refine List.map_congr_left fun k _ => ?_
  rw [Function.comp_apply]
  exact Int.add_comm 1 k

/-- A flood fills every slot once, in their order. -/
theorem map_ends_flood (values : List R) :
    (flood values).map Message.ends = directedSlots values.length := by
  rw [flood, List.map_flatMap, directedSlots, ← map_snd_zipIdx, List.flatMap_map]
  refine List.flatMap_congr fun pair _ => ?_
  rw [map_snd_zipIdx]
  exact map_ends_floodFrom _ _ _

/-- Floods of equally many values fill the same slots. -/
theorem map_ends_flood_eq {values others : List R} (h : values.length = others.length) :
    (flood values).map Message.ends = (flood others).map Message.ends := by
  rw [map_ends_flood, map_ends_flood, h]

variable {messages others : List (Message R)}

theorem length_eq_of_map_ends (h : messages.map Message.ends = others.map Message.ends) :
    messages.length = others.length := by
  rw [← List.length_map Message.ends, h, List.length_map]

/-- Messages chosen by their ends. -/
theorem map_ends_filter (keep : Int × Int → Bool) (messages : List (Message R)) :
    (messages.filter fun message => keep message.ends).map Message.ends =
      (messages.map Message.ends).filter keep :=
  (List.filter_map ..).symm

theorem map_sender_eq (h : messages.map Message.ends = others.map Message.ends) :
    messages.map (·.sender) = others.map (·.sender) := by
  have hfirst : ∀ messages : List (Message R),
      messages.map (·.sender) = (messages.map Message.ends).map Prod.fst := by
    intro messages
    rw [List.map_map]
    rfl
  rw [hfirst, hfirst, h]

/-! ## Faults -/

namespace Fault

variable [Scalar R]

/-- A strategy answers alike to messages with the same ends: the ends show whether it
keeps silent, and whether it has an answer at all. -/
theorem exists_lie {strategy : Strategy} {first second : Message R} {round : Int}
    {one : Option (Message R)} (hends : first.ends = second.ends)
    (h : lie strategy first round = .ok one) :
    ∃ two, lie strategy second round = .ok two ∧ two.map Message.ends = one.map Message.ends := by
  have hsome : some second.ends = some first.ends := congrArg some hends.symm
  cases strategy with
  | silent => cases h; exact ⟨_, rfl, rfl⟩
  | maxValue => cases h; exact ⟨_, rfl, hsome⟩
  | minValue => cases h; exact ⟨_, rfl, hsome⟩
  | opposite => cases h; exact ⟨_, rfl, hsome⟩
  | random =>
      obtain ⟨hsender, hreceiver⟩ := Message.ends_eq.mp hends
      rw [lie, bind_eq_ok, hsender, hreceiver] at h
      obtain ⟨generator, hgenerator, h⟩ := h
      cases h
      exact ⟨_, bind_eq_ok.mpr ⟨generator, hgenerator, rfl⟩, rfl⟩

theorem exists_corrupt {probability : R} {how : Corruption} {seed : Int}
    {first second one : Message R} {round : Int} (hends : first.ends = second.ends)
    (h : corrupt probability how seed first round = .ok one) :
    ∃ two, corrupt probability how seed second round = .ok two ∧ two.ends = one.ends := by
  have hfirst : one.ends = first.ends := ends_corrupt h
  obtain ⟨hsender, hreceiver⟩ := Message.ends_eq.mp hends
  rw [corrupt, bind_eq_ok, hsender, hreceiver] at h
  obtain ⟨generator, hgenerator, _⟩ := h
  have hanswer : ∃ two, corrupt probability how seed second round = .ok two := by
    rw [corrupt, hgenerator, ok_bind]
    dsimp only
    split
    · exact ⟨_, rfl⟩
    · exact ⟨_, rfl⟩
  obtain ⟨two, htwo⟩ := hanswer
  exact ⟨two, htwo, (ends_corrupt htwo).trans (hends.symm.trans hfirst.symm)⟩

mutual

/-- A fault model answers alike to messages with the same ends. -/
theorem exists_transform : ∀ (fault : Fault R) {first second : Message R} {round : Int}
    {one : Option (Message R)}, first.ends = second.ends →
    fault.transform first round = .ok one →
    ∃ two, fault.transform second round = .ok two ∧ two.map Message.ends = one.map Message.ends
  | .none, _, _, _, _, hends, hone => by
      cases hone
      exact ⟨_, rfl, congrArg some hends.symm⟩
  | .crash _ _ _, _, _, _, _, hends, hone => by
      cases hone
      exact ⟨_, rfl, congrArg some hends.symm⟩
  | .partition _ _ _, _, _, _, _, hends, hone => by
      cases hone
      exact ⟨_, rfl, congrArg some hends.symm⟩
  | .byzantine nodes strategy, first, second, round, one, hends, hone => by
      rw [transform, (Message.ends_eq.mp hends).1] at hone
      rw [transform]
      split at hone
      · next hliar =>
        rw [if_pos hliar]
        exact exists_lie hends hone
      · next hhonest =>
        rw [if_neg hhonest]
        cases hone
        exact ⟨_, rfl, congrArg some hends.symm⟩
  | .corruption probability how seed, first, second, round, one, hends, hone => by
      rw [transform, bind_eq_ok] at hone
      obtain ⟨changed, hchanged, hone⟩ := hone
      cases hone
      obtain ⟨two, htwo, hsame⟩ := exists_corrupt hends hchanged
      exact ⟨_, bind_eq_ok.mpr ⟨two, htwo, rfl⟩, congrArg some hsame⟩
  | .composite models, first, second, round, one, hends, hone => by
      rw [transform] at hone ⊢
      exact exists_transformAll models hends hone

/-- Several models in turn answer alike to messages with the same ends. -/
theorem exists_transformAll : ∀ (models : List (Fault R)) {first second : Message R}
    {round : Int} {one : Option (Message R)}, first.ends = second.ends →
    transformAll models first round = .ok one →
    ∃ two, transformAll models second round = .ok two ∧
      two.map Message.ends = one.map Message.ends
  | [], _, _, _, _, hends, hone => by
      cases hone
      exact ⟨_, rfl, congrArg some hends.symm⟩
  | model :: rest, first, second, round, one, hends, hone => by
      rw [transformAll, bind_eq_ok] at hone
      obtain ⟨sent, hsent, hone⟩ := hone
      obtain ⟨sent', hsent', hsame⟩ := exists_transform model hends hsent
      rw [transformAll, hsent', ok_bind]
      cases sent with
      | none =>
          obtain rfl := Option.map_eq_none_iff.mp hsame
          cases hone
          exact ⟨_, rfl, rfl⟩
      | some between =>
          obtain ⟨between', rfl, hbetween⟩ := Option.map_eq_some_iff.mp hsame
          exact exists_transformAll rest hbetween.symm hone

end

/-- What a fault model leaves of a message has ends that are told from those of
the message. -/
theorem exists_affect {fault : Fault R} {first second : Message R} {round : Int}
    {one : Option (Message R)} (hends : first.ends = second.ends)
    (hone : fault.affect first round = .ok one) :
    ∃ two, fault.affect second round = .ok two ∧ two.map Message.ends = one.map Message.ends := by
  obtain ⟨hsender, hreceiver⟩ := Message.ends_eq.mp hends
  rw [affect, bind_eq_ok, hsender, hreceiver] at hone
  obtain ⟨passed, hpassed, hone⟩ := hone
  rw [affect, hpassed, ok_bind]
  cases passed with
  | false => cases hone; exact ⟨_, rfl, rfl⟩
  | true => exact exists_transform fault hends hone

theorem map_ends_affect_eq {fault : Fault R} {first second : Message R} {round : Int}
    {one two : Option (Message R)} (hends : first.ends = second.ends)
    (hone : fault.affect first round = .ok one) (htwo : fault.affect second round = .ok two) :
    one.map Message.ends = two.map Message.ends := by
  obtain ⟨two', htwo', hsame⟩ := exists_affect hends hone
  obtain rfl := Except.ok.inj (htwo'.symm.trans htwo)
  exact hsame.symm

/-- Faults leave the same slots of floods that fill the same ones. -/
theorem map_ends_apply_eq {fault : Fault R} {round : Int}
    {left left' : List (Message R)} (hends : messages.map Message.ends = others.map Message.ends)
    (hleft : fault.apply messages round = .ok left)
    (hleft' : fault.apply others round = .ok left') :
    left.map Message.ends = left'.map Message.ends := by
  rw [apply, bind_eq_ok] at hleft hleft'
  obtain ⟨affected, haffected, hleft⟩ := hleft
  obtain ⟨affected', haffected', hleft'⟩ := hleft'
  obtain rfl := pure_eq_ok.mp hleft
  obtain rfl := pure_eq_ok.mp hleft'
  have hall := mapM_eq_ok.mp haffected
  have hall' := mapM_eq_ok.mp haffected'
  rw [List.map_filterMap, List.map_filterMap]
  clear haffected haffected' hleft hleft'
  induction hall generalizing others affected' with
  | nil =>
      obtain rfl : others = [] := List.map_eq_nil_iff.mp hends.symm
      cases hall'
      rfl
  | cons hfirst _ ih =>
      rename_i message outcome rest outcomes _
      cases hall' with
      | nil => cases hends
      | cons hfirst' hrest' =>
          obtain ⟨hhead, htail⟩ := List.cons.inj hends
          have hsame := map_ends_affect_eq hhead hfirst hfirst'
          have hrest := ih htail _ hrest'
          simp only [List.filterMap_cons, id_eq] at hrest ⊢
          rw [hsame, hrest]

/-- Faults that have an answer for a flood have one for each that fills the same
slots. -/
theorem exists_apply {fault : Fault R} {round : Int} {left : List (Message R)}
    (hends : messages.map Message.ends = others.map Message.ends)
    (h : fault.apply messages round = .ok left) : ∃ left', fault.apply others round = .ok left' := by
  rw [apply, bind_eq_ok] at h
  obtain ⟨affected, haffected, _⟩ := h
  have hall : ∀ other ∈ others, ∃ result, fault.affect other round = .ok result := by
    intro other hother
    have hslot : other.ends ∈ messages.map Message.ends :=
      hends ▸ List.mem_map_of_mem hother
    obtain ⟨message, hmessage, hsame⟩ := List.mem_map.mp hslot
    obtain ⟨result, hresult⟩ := exists_of_mapM_eq_ok haffected hmessage
    obtain ⟨other', hother', _⟩ := exists_affect hsame hresult
    exact ⟨other', hother'⟩
  obtain ⟨results, hresults⟩ := exists_mapM_eq_ok hall
  exact ⟨_, bind_eq_ok.mpr ⟨results, hresults, rfl⟩⟩

end Fault

/-! ## Draws -/

variable [Scalar R]

/-- The draws taken for a batch depend on its size alone. -/
theorem sample_snd_eq (model : Model) (p p' : R) (count : Nat) (generator : Generator) :
    (model.sample p count generator).2 = (model.sample p' count generator).2 := by
  cases model with
  | standard => rfl
  | guaranteed minMessages scope => rfl
  | broadcast mode =>
      rw [Model.sample, Model.sample]
      split
      · rfl
      · rfl

section Lawful

variable [LawfulScalar R]

/-- What arrives at a probability arrives at every greater one. -/
theorem arrives_le {p p' : R} (hp : Scalar.le p p' = true) (draw : Nat) :
    Scalar.lt (Scalar.ofDraw draw) p ≤ Scalar.lt (Scalar.ofDraw draw) p' :=
  fun harrives => LawfulScalar.lt_of_lt_of_le harrives hp

theorem sample_fst_le (model : Model) {p p' : R} (hp : Scalar.le p p' = true) (count : Nat)
    (generator : Generator) :
    List.Forall₂ (· ≤ ·) (model.sample p count generator).1
      (model.sample p' count generator).1 := by
  have hdraws : ∀ draws : List Nat, List.Forall₂ (· ≤ ·)
      (draws.map fun draw => Scalar.lt (Scalar.ofDraw draw) p)
      (draws.map fun draw => Scalar.lt (Scalar.ofDraw draw) p') := by
    intro draws
    rw [List.forall₂_map_left_iff, List.forall₂_map_right_iff, List.forall₂_same]
    exact fun draw _ => arrives_le hp draw
  cases model with
  | standard => exact hdraws _
  | guaranteed minMessages scope => exact hdraws _
  | broadcast mode =>
      rw [Model.sample, Model.sample]
      split
      · exact .nil
      · refine List.forall₂_iff_get.mpr ⟨by simp, ?_⟩
        intro index _ _
        simpa using arrives_le hp _

/-! ## Batches -/

omit [Scalar R] [LawfulScalar R] in
/-- More flags let more slots of a batch arrive. -/
theorem map_ends_divide_sublist (hends : messages.map Message.ends = others.map Message.ends)
    {flags flags' : List Bool} (hflags : List.Forall₂ (· ≤ ·) flags flags') :
    ((divide messages flags).delivered.map Message.ends).Sublist
      ((divide others flags').delivered.map Message.ends) := by
  induction hflags generalizing messages others with
  | nil => simp [divide]
  | cons hflag _ ih =>
      rename_i flag flag' flags flags' _
      cases messages with
      | nil => simp [divide]
      | cons message messages =>
          cases others with
          | nil => cases hends
          | cons other others =>
              obtain ⟨hhead, htail⟩ := List.cons.inj hends
              have hrest := ih htail
              cases flag with
              | false =>
                  cases flag' with
                  | false => exact hrest
                  | true => exact hrest.cons _
              | true =>
                  cases flag' with
                  | false => cases hflag rfl
                  | true =>
                      simp only [divide, List.zip_cons_cons, List.filterMap_cons, if_true,
                        List.map_cons, hhead] at hrest ⊢
                      exact hrest.cons_cons _

theorem deliverFrom_coupled (assignment : Assignment) {p p' : R} (hp : Scalar.le p p' = true)
    (hends : messages.map Message.ends = others.map Message.ends) (senders : List Int)
    (generator : Generator) :
    (deliverFrom assignment p messages senders generator).2 =
        (deliverFrom assignment p' others senders generator).2 ∧
      ((deliverFrom assignment p messages senders generator).1.delivered.map
          Message.ends).Sublist
        ((deliverFrom assignment p' others senders generator).1.delivered.map Message.ends) := by
  induction senders generalizing generator with
  | nil => exact ⟨rfl, List.Sublist.slnil⟩
  | cons sender senders ih =>
      have hbatch : (messages.filter fun message => message.sender == sender).map Message.ends =
          (others.filter fun message => message.sender == sender).map Message.ends := by
        have hchoose := map_ends_filter (R := R) fun ends => ends.1 == sender
        exact (hchoose messages).trans (hends ▸ (hchoose others).symm)
      have hdrawn := sample_snd_eq (assignment.model sender) p p'
        (messages.filter fun message => message.sender == sender).length generator
      have hflags := sample_fst_le (assignment.model sender) hp
        (messages.filter fun message => message.sender == sender).length generator
      rw [length_eq_of_map_ends hbatch] at hdrawn hflags
      have hfirst := map_ends_divide_sublist hbatch hflags
      simp only [deliverFrom, length_eq_of_map_ends hbatch, hdrawn, List.map_append]
      obtain ⟨hnext, hrest⟩ := ih _
      exact ⟨hnext, hfirst.append hrest⟩

/-- Two deliveries of the same slots take the same draws, and at a greater
probability no slot is lost. -/
theorem deliver_coupled (assignment : Assignment) {p p' : R} (hp : Scalar.le p p' = true)
    (hends : messages.map Message.ends = others.map Message.ends) (generator : Generator) :
    (deliver assignment p messages generator).2 = (deliver assignment p' others generator).2 ∧
      ((deliver assignment p messages generator).1.delivered.map Message.ends).Sublist
        ((deliver assignment p' others generator).1.delivered.map Message.ends) := by
  rw [deliver, deliver, map_sender_eq hends]
  exact deliverFrom_coupled assignment hp hends _ generator

end Lawful

/-! ## The top-up -/

omit [Scalar R]

theorem length_addressedTo (receiver : Int) (messages : List (Message R)) :
    (addressedTo receiver messages).length =
      ((messages.map Message.ends).filter fun ends => ends.2 == receiver).length := by
  rw [addressedTo, ← map_ends_filter, List.length_map]
  rfl

/-- What a topped up inbox holds: all that is delivered, or what the guarantee
demands as far as messages were sent. -/
theorem length_get_topUp (guarantee : Guarantee) {count : Nat} (outcome : Outcome R)
    {outbound : List (Message R)}
    (hperm : (outcome.delivered ++ outcome.undelivered).Perm outbound) {id : Int}
    (hid : id ∈ processIds count) :
    ((topUp guarantee count (Inboxes.ofDelivered count outcome.delivered)
        outcome.undelivered).1.get id).length =
      max (addressedTo id outcome.delivered).length
        (min (need guarantee count) (addressedTo id outbound).length) := by
  have hsplit := (hperm.filter fun message => message.receiver == id).length_eq
  rw [List.filter_append, List.length_append, ← addressedTo, ← addressedTo, ← addressedTo] at hsplit
  rw [get_topUp guarantee _ _ hid, Inboxes.get_ofDelivered, List.length_append, List.length_take]
  omega

end LossyConsensus.Network
