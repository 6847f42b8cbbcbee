/-
# What inboxes hold

The inbox of a process holds the delivered messages addressed to it, in the
order of delivery, and after them the first lost ones that the channel makes up
for.  So the top-up of one process takes nothing that another one could use,
and what an inbox holds can be said process by process.
-/

import LossyConsensus.Network.Inbox
import LossyConsensus.Proofs.Network.Flood
import Mathlib.Algebra.Ring.Nat

namespace LossyConsensus.Network

open LossyConsensus.Protocol

variable {R : Type}

/-- The messages addressed to a process. -/
def addressedTo (receiver : Int) (messages : List (Message R)) : List (Message R) :=
  messages.filter fun message => message.receiver == receiver

theorem mem_addressedTo {receiver : Int} {messages : List (Message R)} {message : Message R} :
    message ∈ addressedTo receiver messages ↔
      message ∈ messages ∧ message.receiver = receiver := by
  simp [addressedTo]

/-- Messages to one process that differ in their ends have different senders. -/
theorem nodup_senders_addressedTo {messages : List (Message R)}
    (hends : (messages.map Message.ends).Nodup) (receiver : Int) :
    ((addressedTo receiver messages).map (·.sender)).Nodup := by
  have hkept : ((addressedTo receiver messages).map Message.ends).Nodup :=
    hends.sublist (List.filter_sublist.map _)
  refine List.pairwise_map.mpr ((List.pairwise_map.mp hkept).imp_of_mem ?_)
  intro first second hfirst hsecond hne heq
  refine hne (Message.ends_eq.mpr ⟨heq, ?_⟩)
  rw [(mem_addressedTo.mp hfirst).2, (mem_addressedTo.mp hsecond).2]

/-- In a flood there is a message to a process from each other one. -/
theorem length_addressedTo_flood {values : List R} {id : Int}
    (hid : id ∈ processIds values.length) :
    (addressedTo id (flood values)).length = values.length - 1 := by
  have hsenders : ((addressedTo id (flood values)).map (·.sender)).Perm
      ((processIds values.length).erase id) := by
    refine (List.perm_ext_iff_of_nodup (nodup_senders_addressedTo (nodup_ends_flood values) id)
      ((nodup_processIds _).erase id)).mpr fun sender => ?_
    rw [(nodup_processIds _).mem_erase_iff, List.mem_map]
    constructor
    · rintro ⟨message, hmem, rfl⟩
      obtain ⟨hflood, rfl⟩ := mem_addressedTo.mp hmem
      exact ⟨(mem_flood.mp hflood).2.2.2.symm, sender_mem_processIds_of_mem_flood hflood⟩
    · rintro ⟨hne, hsender⟩
      obtain ⟨hlow, hhigh⟩ := mem_processIds.mp hsender
      have hat := List.getElem?_eq_getElem (l := values) (i := (sender - 1).toNat) (by omega)
      exact ⟨⟨sender, id, _⟩, mem_addressedTo.mpr ⟨mem_flood.mpr ⟨hlow, hat, hid, hne.symm⟩, rfl⟩,
        rfl⟩
  have hlength := hsenders.length_eq
  rwa [List.length_map, List.length_erase_of_mem hid, length_processIds] at hlength

namespace Inboxes

/-! ## Looking up and replacing -/

theorem get_cons (owner id : Int) (inbox : List (Message R)) (rest : Inboxes R) :
    get ((owner, inbox) :: rest) id = if id = owner then inbox else rest.get id := by
  rw [get, List.lookup_cons]
  by_cases h : id = owner
  · rw [if_pos h, beq_iff_eq.mpr h]
    rfl
  · rw [if_neg h, beq_false_of_ne h]
    rfl

theorem get_set (inboxes : Inboxes R) (receiver id : Int) (messages : List (Message R)) :
    (inboxes.set receiver messages).get id =
      if id = receiver then messages else inboxes.get id := by
  induction inboxes with
  | nil => exact get_cons _ _ _ _
  | cons entry rest ih =>
      obtain ⟨owner, inbox⟩ := entry
      rw [set]
      by_cases howner : owner = receiver
      · subst howner
        rw [if_pos (by simp), get_cons, get_cons]
        by_cases h : id = owner <;> simp [h]
      · rw [if_neg (by simpa using howner), get_cons, get_cons, ih]
        by_cases h : id = owner <;> simp [h, howner]

theorem get_add (inboxes : Inboxes R) (message : Message R) (id : Int) :
    (inboxes.add message).get id =
      if id = message.receiver then inboxes.get id ++ [message] else inboxes.get id := by
  rw [add, get_set]
  split
  · next h => rw [h]
  · rfl

theorem get_empty (count : Nat) (id : Int) : (empty count : Inboxes R).get id = [] := by
  rw [empty]
  induction processIds count with
  | nil => rfl
  | cons first rest ih =>
      rw [List.map_cons, get_cons]
      split
      · rfl
      · exact ih

theorem get_foldl_add (inboxes : Inboxes R) (delivered : List (Message R)) (id : Int) :
    (delivered.foldl add inboxes).get id = inboxes.get id ++ addressedTo id delivered := by
  induction delivered generalizing inboxes with
  | nil => simp [addressedTo]
  | cons message rest ih =>
      rw [List.foldl_cons, ih, get_add, addressedTo, addressedTo]
      by_cases h : message.receiver = id
      · rw [if_pos h.symm, List.filter_cons_of_pos (by simpa using h), List.append_assoc,
          List.singleton_append]
      · rw [if_neg (Ne.symm h), List.filter_cons_of_neg (by simpa using h)]

/-- An inbox holds what was delivered to its process, in the order of
delivery. -/
theorem get_ofDelivered (count : Nat) (delivered : List (Message R)) (id : Int) :
    (ofDelivered count delivered).get id = addressedTo id delivered := by
  rw [ofDelivered, get_foldl_add, get_empty, List.nil_append]

/-! ## The processes that have an inbox -/

theorem map_fst_set {inboxes : Inboxes R} {receiver : Int} (h : receiver ∈ inboxes.map (·.1))
    (messages : List (Message R)) :
    (inboxes.set receiver messages).map (·.1) = inboxes.map (·.1) := by
  induction inboxes with
  | nil => cases h
  | cons entry rest ih =>
      obtain ⟨owner, inbox⟩ := entry
      rw [set]
      by_cases howner : owner = receiver
      · rw [if_pos (by simpa using howner)]
        rfl
      · rw [if_neg (by simpa using howner), List.map_cons, List.map_cons]
        have hrest : receiver ∈ rest.map (·.1) := by
          rcases List.mem_cons.mp h with heq | hmem
          · exact absurd heq.symm howner
          · exact hmem
        rw [ih hrest]

theorem map_fst_empty (count : Nat) : (empty count : Inboxes R).map (·.1) = processIds count := by
  rw [empty, List.map_map]
  exact List.map_id _

theorem map_fst_foldl_add {inboxes : Inboxes R} {delivered : List (Message R)}
    (h : ∀ message ∈ delivered, message.receiver ∈ inboxes.map (·.1)) :
    (delivered.foldl add inboxes).map (·.1) = inboxes.map (·.1) := by
  induction delivered generalizing inboxes with
  | nil => rfl
  | cons message rest ih =>
      have hkeys : (inboxes.add message).map (·.1) = inboxes.map (·.1) :=
        map_fst_set (h message List.mem_cons_self) _
      rw [List.foldl_cons, ih, hkeys]
      intro other hother
      rw [hkeys]
      exact h other (List.mem_cons_of_mem _ hother)

/-- Delivery to processes opens no further inbox. -/
theorem map_fst_ofDelivered {count : Nat} {delivered : List (Message R)}
    (h : ∀ message ∈ delivered, message.receiver ∈ processIds count) :
    (ofDelivered count delivered).map (·.1) = processIds count := by
  rw [ofDelivered, map_fst_foldl_add, map_fst_empty]
  simpa only [map_fst_empty] using h

/-- The messages held are those of all processes that have an inbox. -/
theorem size_eq_sum {inboxes : Inboxes R} (h : (inboxes.map (·.1)).Nodup) :
    inboxes.size = ((inboxes.map (·.1)).map fun id => (inboxes.get id).length).sum := by
  have hget : ∀ entry ∈ inboxes, inboxes.get entry.1 = entry.2 := by
    induction inboxes with
    | nil => simp
    | cons first rest ih =>
        obtain ⟨hfresh, hrest⟩ := List.nodup_cons.mp h
        intro entry hentry
        rw [get_cons]
        rcases List.mem_cons.mp hentry with rfl | hentry
        · exact if_pos rfl
        · have hne : entry.1 ≠ first.1 := by
            intro heq
            exact hfresh (List.mem_map.mpr ⟨entry, hentry, heq⟩)
          rw [if_neg hne]
          exact ih hrest entry hentry
  rw [size, List.map_map]
  congr 1
  refine List.map_congr_left fun entry hentry => ?_
  rw [Function.comp_apply, hget entry hentry]

end Inboxes

/-! ## The top-up -/

/-- The messages taken for a receiver are the first ones addressed to it. -/
theorem takeFor_fst (receiver : Int) (wanted : Nat) (messages : List (Message R)) :
    (takeFor receiver wanted messages).1 = (addressedTo receiver messages).take wanted := by
  induction messages generalizing wanted with
  | nil => cases wanted <;> rfl
  | cons message rest ih =>
      cases wanted with
      | zero => simp [takeFor]
      | succ wanted =>
          rw [takeFor, addressedTo]
          by_cases h : message.receiver = receiver
          · rw [if_pos (by simpa using h), List.filter_cons_of_pos (by simpa using h),
              List.take_succ_cons]
            exact congrArg (message :: ·) (ih wanted)
          · rw [if_neg (by simpa using h), List.filter_cons_of_neg (by simpa using h)]
            exact ih (wanted + 1)

/-- Taking messages for one receiver leaves those of every other one. -/
theorem addressedTo_takeFor_snd {receiver other : Int} (hne : other ≠ receiver) (wanted : Nat)
    (messages : List (Message R)) :
    addressedTo other (takeFor receiver wanted messages).2 = addressedTo other messages := by
  induction messages generalizing wanted with
  | nil => cases wanted <;> rfl
  | cons message rest ih =>
      cases wanted with
      | zero => rfl
      | succ wanted =>
          rw [takeFor]
          by_cases h : message.receiver = receiver
          · have hother : ¬ (message.receiver == other) = true := by
              simpa [h] using Ne.symm hne
            have hskip : addressedTo other (message :: rest) = addressedTo other rest :=
              List.filter_cons_of_neg hother
            rw [if_pos (by simpa using h), hskip]
            exact ih wanted
          · rw [if_neg (by simpa using h)]
            have hrest := ih (wanted + 1)
            rw [addressedTo, addressedTo] at hrest ⊢
            rw [List.filter_cons, List.filter_cons, hrest]

/-- After the top-up of the given receivers, each of them has got the first
lost messages addressed to it, as many as it was short of; every other inbox is
as it was. -/
theorem get_topUpFrom (wanted : Nat) {receivers : List Int} (hnodup : receivers.Nodup)
    (inboxes : Inboxes R) (undelivered : List (Message R)) (id : Int) :
    (topUpFrom wanted receivers inboxes undelivered).1.get id =
      if id ∈ receivers then
        inboxes.get id ++
          (addressedTo id undelivered).take (wanted - (inboxes.get id).length)
      else inboxes.get id := by
  induction receivers generalizing inboxes undelivered with
  | nil => simp [topUpFrom]
  | cons receiver receivers ih =>
      obtain ⟨hfresh, hnodup⟩ := List.nodup_cons.mp hnodup
      rw [topUpFrom, ih hnodup, Inboxes.get_set]
      by_cases h : id = receiver
      · subst h
        rw [if_neg hfresh, if_pos rfl, if_pos List.mem_cons_self, takeFor_fst]
      · rw [if_neg h, addressedTo_takeFor_snd h]
        simp only [List.mem_cons, h, false_or]

theorem map_fst_topUpFrom (wanted : Nat) {receivers : List Int} {inboxes : Inboxes R}
    (h : ∀ receiver ∈ receivers, receiver ∈ inboxes.map (·.1))
    (undelivered : List (Message R)) :
    (topUpFrom wanted receivers inboxes undelivered).1.map (·.1) = inboxes.map (·.1) := by
  induction receivers generalizing inboxes undelivered with
  | nil => rfl
  | cons receiver receivers ih =>
      have hkeys := Inboxes.map_fst_set (h receiver List.mem_cons_self)
        (inboxes.get receiver ++
          (takeFor receiver (wanted - (inboxes.get receiver).length) undelivered).1)
      rw [topUpFrom, ih, hkeys]
      intro other hother
      rw [hkeys]
      exact h other (List.mem_cons_of_mem _ hother)

/-- A guarantee visits the processes one after the other. -/
theorem topUp_of_ne_none {guarantee : Guarantee} (h : guarantee ≠ .none) (count : Nat)
    (inboxes : Inboxes R) (undelivered : List (Message R)) :
    topUp guarantee count inboxes undelivered =
      topUpFrom (need guarantee count) (processIds count) inboxes undelivered := by
  cases guarantee with
  | none => exact absurd rfl h
  | atLeastOne => rfl
  | majority => rfl

/-- The top-up adds to the inbox of a process the first lost messages addressed
to it, as many as the guarantee demands beyond those delivered. -/
theorem get_topUp (guarantee : Guarantee) {count : Nat} (inboxes : Inboxes R)
    (undelivered : List (Message R)) {id : Int} (hid : id ∈ processIds count) :
    (topUp guarantee count inboxes undelivered).1.get id =
      inboxes.get id ++
        (addressedTo id undelivered).take (need guarantee count - (inboxes.get id).length) := by
  by_cases h : guarantee = .none
  · subst h
    simp [topUp, need]
  · rw [topUp_of_ne_none h, get_topUpFrom _ (nodup_processIds count), if_pos hid]

/-- The top-up leaves the inboxes of whoever is no process alone. -/
theorem get_topUp_of_not_mem (guarantee : Guarantee) {count : Nat} (inboxes : Inboxes R)
    (undelivered : List (Message R)) {id : Int} (hid : id ∉ processIds count) :
    (topUp guarantee count inboxes undelivered).1.get id = inboxes.get id := by
  by_cases h : guarantee = .none
  · subst h
    rfl
  · rw [topUp_of_ne_none h, get_topUpFrom _ (nodup_processIds count), if_neg hid]

theorem map_fst_topUp (guarantee : Guarantee) {count : Nat} {inboxes : Inboxes R}
    (hkeys : inboxes.map (·.1) = processIds count) (undelivered : List (Message R)) :
    (topUp guarantee count inboxes undelivered).1.map (·.1) = processIds count := by
  by_cases h : guarantee = .none
  · subst h
    exact hkeys
  · rw [topUp_of_ne_none h, map_fst_topUpFrom _ (fun _ hid => hkeys ▸ hid), hkeys]

end LossyConsensus.Network
