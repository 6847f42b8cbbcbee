/-
# Topping up

A channel guarantee makes up for lost messages one at a time: a receiver whose inbox
is short looks for the first lost message addressed to it, takes it off the list and
puts it at the end of its inbox, until the inbox is full or nothing is addressed to it
any more.  However the receivers of the lost messages are mixed, this comes to an end,
and to the same end as one pass over the list for each receiver.

No message is made up, lost from sight or given to anyone else, and neither an inbox
nor what is left of the lost messages changes its order.
-/

import LossyConsensus.Proofs.Network.Inbox
import Mathlib.Data.List.Perm.Basic

namespace LossyConsensus.Network

open LossyConsensus.Protocol

variable {R : Type}

/-! ## One message at a time -/

/-- A receiver of whom `wanted` messages are demanded goes from its inbox and the lost
messages to the inbox that it ends with and the messages that are still lost. -/
inductive Fetches (wanted : Nat) (receiver : Int) :
    List (Message R) → List (Message R) → List (Message R) → List (Message R) → Prop
  | full {inbox lost : List (Message R)} (henough : wanted ≤ inbox.length) :
      Fetches wanted receiver inbox lost inbox lost
  | bare {inbox lost : List (Message R)} (hshort : inbox.length < wanted)
      (hnone : lost.findIdx? (fun message => message.receiver == receiver) = none) :
      Fetches wanted receiver inbox lost inbox lost
  | fetch {inbox lost inbox' left : List (Message R)} {index : Nat} {message : Message R}
      (hshort : inbox.length < wanted)
      (hfirst : lost.findIdx? (fun message => message.receiver == receiver) = some index)
      (hmessage : lost[index]? = some message)
      (hrest : Fetches wanted receiver (inbox ++ [message]) (lost.eraseIdx index) inbox' left) :
      Fetches wanted receiver inbox lost inbox' left

/-- Receivers one after the other, each of whom sees the messages that the ones before
have left. -/
inductive FetchesInTurn (wanted : Nat) :
    List Int → Inboxes R → List (Message R) → Inboxes R → List (Message R) → Prop
  | done {inboxes : Inboxes R} {lost : List (Message R)} :
      FetchesInTurn wanted [] inboxes lost inboxes lost
  | next {receiver : Int} {receivers : List Int} {inboxes topped : Inboxes R}
      {lost inbox between left : List (Message R)}
      (hfirst : Fetches wanted receiver (inboxes.get receiver) lost inbox between)
      (hrest : FetchesInTurn wanted receivers (inboxes.set receiver inbox) between topped left) :
      FetchesInTurn wanted (receiver :: receivers) inboxes lost topped left

/-- What a guarantee comes to.  Where there is none, nothing happens. -/
def MakesUp (guarantee : Guarantee) (count : Nat) (inboxes : Inboxes R)
    (lost : List (Message R)) (topped : Inboxes R) (left : List (Message R)) : Prop :=
  match guarantee with
  | .none => topped = inboxes ∧ left = lost
  | _ => FetchesInTurn (need guarantee count) (processIds count) inboxes lost topped left

/-! ## One pass over the lost messages -/

section Pass

variable {receiver : Int} {message : Message R}

/-- A message to someone else stays where it is. -/
theorem takeFor_cons_of_ne (hne : message.receiver ≠ receiver) (wanted : Nat)
    (rest : List (Message R)) :
    takeFor receiver wanted (message :: rest) =
      ((takeFor receiver wanted rest).1, message :: (takeFor receiver wanted rest).2) := by
  cases wanted with
  | zero => cases rest <;> rfl
  | succ wanted => rw [takeFor, if_neg (by simpa using hne)]

theorem takeFor_cons_self (hself : message.receiver = receiver) (wanted : Nat)
    (rest : List (Message R)) :
    takeFor receiver (wanted + 1) (message :: rest) =
      (message :: (takeFor receiver wanted rest).1, (takeFor receiver wanted rest).2) := by
  rw [takeFor, if_pos (by simpa using hself)]

theorem takeFor_zero (receiver : Int) (messages : List (Message R)) :
    takeFor receiver 0 messages = ([], messages) := by
  cases messages <;> rfl

/-- The messages taken and those left are the messages there were. -/
theorem takeFor_perm (receiver : Int) (wanted : Nat) (messages : List (Message R)) :
    ((takeFor receiver wanted messages).1 ++ (takeFor receiver wanted messages).2).Perm
      messages := by
  induction messages generalizing wanted with
  | nil => cases wanted <;> exact .nil
  | cons message rest ih =>
      by_cases hself : message.receiver = receiver
      · cases wanted with
        | zero => rw [takeFor_zero, List.nil_append]
        | succ wanted =>
            rw [takeFor_cons_self hself]
            exact (ih wanted).cons message
      · rw [takeFor_cons_of_ne hself]
        exact List.perm_middle.trans ((ih wanted).cons message)

/-- The messages left stand in the order in which they stood. -/
theorem takeFor_snd_sublist (receiver : Int) (wanted : Nat) (messages : List (Message R)) :
    (takeFor receiver wanted messages).2.Sublist messages := by
  induction messages generalizing wanted with
  | nil => cases wanted <;> exact .slnil
  | cons message rest ih =>
      by_cases hself : message.receiver = receiver
      · cases wanted with
        | zero => rw [takeFor_zero]
        | succ wanted =>
            rw [takeFor_cons_self hself]
            exact (ih wanted).cons message
      · rw [takeFor_cons_of_ne hself]
        exact (ih wanted).cons_cons message

/-- Of the messages to the receiver all but the first ones are left. -/
theorem addressedTo_takeFor_snd_self (receiver : Int) (wanted : Nat)
    (messages : List (Message R)) :
    addressedTo receiver (takeFor receiver wanted messages).2 =
      (addressedTo receiver messages).drop wanted := by
  induction messages generalizing wanted with
  | nil => cases wanted <;> rfl
  | cons message rest ih =>
      by_cases hself : message.receiver = receiver
      · have hkept : addressedTo receiver (message :: rest) =
            message :: addressedTo receiver rest :=
          List.filter_cons_of_pos (by simpa using hself)
        cases wanted with
        | zero => rw [takeFor_zero, List.drop_zero]
        | succ wanted => rw [takeFor_cons_self hself, hkept, List.drop_succ_cons, ih]
      · have hskipped : ∀ messages : List (Message R),
            addressedTo receiver (message :: messages) = addressedTo receiver messages :=
          fun _ => List.filter_cons_of_neg (by simpa using hself)
        rw [takeFor_cons_of_ne hself, hskipped, hskipped, ih]

/-- Nothing is taken where nothing is addressed to the receiver. -/
theorem takeFor_of_findIdx?_eq_none {messages : List (Message R)}
    (h : messages.findIdx? (fun message => message.receiver == receiver) = none) (wanted : Nat) :
    takeFor receiver wanted messages = ([], messages) := by
  induction messages with
  | nil => cases wanted <;> rfl
  | cons message rest ih =>
      rw [List.findIdx?_eq_none_iff, List.forall_mem_cons] at h
      obtain ⟨hne, hrest⟩ := h
      rw [takeFor_cons_of_ne (by simpa using hne), ih (List.findIdx?_eq_none_iff.mpr hrest)]

/-- The first message taken is the first one addressed to the receiver, and the others
are taken as if it had not been there. -/
theorem takeFor_of_findIdx?_eq_some {messages : List (Message R)} {index : Nat}
    (hfirst : messages.findIdx? (fun message => message.receiver == receiver) = some index)
    (hmessage : messages[index]? = some message) (wanted : Nat) :
    takeFor receiver (wanted + 1) messages =
      (message :: (takeFor receiver wanted (messages.eraseIdx index)).1,
        (takeFor receiver wanted (messages.eraseIdx index)).2) := by
  induction messages generalizing index with
  | nil => cases hmessage
  | cons head rest ih =>
      rw [List.findIdx?_cons] at hfirst
      by_cases hself : head.receiver = receiver
      · rw [if_pos (by simpa using hself)] at hfirst
        obtain rfl := Option.some.inj hfirst
        obtain rfl := Option.some.inj hmessage
        exact takeFor_cons_self hself wanted rest
      · rw [if_neg (by simpa using hself)] at hfirst
        obtain ⟨index, hindex, rfl⟩ := Option.map_eq_some_iff.mp hfirst
        rw [List.eraseIdx_cons_succ, takeFor_cons_of_ne hself, takeFor_cons_of_ne hself,
          ih hindex hmessage]

end Pass

/-- Fetching one message at a time comes to an end, and to nothing else than one pass
over the lost messages. -/
theorem fetches_iff {wanted : Nat} {receiver : Int} {inbox lost inbox' left : List (Message R)} :
    Fetches wanted receiver inbox lost inbox' left ↔
      inbox' = inbox ++ (takeFor receiver (wanted - inbox.length) lost).1 ∧
        left = (takeFor receiver (wanted - inbox.length) lost).2 := by
  constructor
  · intro h
    induction h with
    | full henough =>
        rw [Nat.sub_eq_zero_of_le henough, takeFor_zero, List.append_nil]
        exact ⟨rfl, rfl⟩
    | bare _ hnone =>
        rw [takeFor_of_findIdx?_eq_none hnone, List.append_nil]
        exact ⟨rfl, rfl⟩
    | @fetch inbox lost inbox' left index message hshort hfirst hmessage _ ih =>
        have hmissing : wanted - inbox.length = wanted - (inbox ++ [message]).length + 1 := by
          rw [List.length_append, List.length_singleton]
          omega
        rw [hmissing, takeFor_of_findIdx?_eq_some hfirst hmessage, List.append_cons]
        exact ih
  · rintro ⟨rfl, rfl⟩
    -- What the inbox is short of goes down by one with each message fetched.
    generalize hmissing : wanted - inbox.length = missing
    induction missing generalizing inbox lost with
    | zero =>
        rw [takeFor_zero, List.append_nil]
        exact .full (Nat.le_of_sub_eq_zero hmissing)
    | succ missing ih =>
        have hshort : inbox.length < wanted := by omega
        cases hfirst : lost.findIdx? (fun message => message.receiver == receiver) with
        | none =>
            rw [takeFor_of_findIdx?_eq_none hfirst, List.append_nil]
            exact .bare hshort hfirst
        | some index =>
            obtain ⟨hindex, _⟩ := List.findIdx?_eq_some_iff_getElem.mp hfirst
            have hmessage := List.getElem?_eq_getElem hindex
            rw [takeFor_of_findIdx?_eq_some hfirst hmessage, List.append_cons]
            refine .fetch hshort hfirst hmessage (ih ?_)
            rw [List.length_append, List.length_singleton]
            omega

/-! ## All receivers -/

theorem fetchesInTurn_iff {wanted : Nat} {receivers : List Int} {inboxes topped : Inboxes R}
    {lost left : List (Message R)} :
    FetchesInTurn wanted receivers inboxes lost topped left ↔
      topUpFrom wanted receivers inboxes lost = (topped, left) := by
  induction receivers generalizing inboxes lost with
  | nil =>
      rw [topUpFrom, Prod.mk.injEq]
      constructor
      · rintro ⟨⟩
        exact ⟨rfl, rfl⟩
      · rintro ⟨rfl, rfl⟩
        exact .done
  | cons receiver receivers ih =>
      rw [topUpFrom, ← ih]
      constructor
      · rintro (_ | ⟨hfirst, hrest⟩)
        obtain ⟨rfl, rfl⟩ := fetches_iff.mp hfirst
        exact hrest
      · exact fun hrest => .next (fetches_iff.mpr ⟨rfl, rfl⟩) hrest

/-- The top-up is what fetching messages one at a time comes to. -/
theorem makesUp_iff {guarantee : Guarantee} {count : Nat} {inboxes topped : Inboxes R}
    {lost left : List (Message R)} :
    MakesUp guarantee count inboxes lost topped left ↔
      topUp guarantee count inboxes lost = (topped, left) := by
  cases guarantee with
  | none =>
      rw [MakesUp, topUp, Prod.mk.injEq, eq_comm (a := topped), eq_comm (a := left)]
  | atLeastOne => exact fetchesInTurn_iff
  | majority => exact fetchesInTurn_iff

/-- All messages that inboxes hold. -/
def Inboxes.messages (inboxes : Inboxes R) : List (Message R) :=
  inboxes.flatMap fun (_, inbox) => inbox

/-- An inbox that is added to holds what is added besides what it held. -/
theorem Inboxes.messages_set (inboxes : Inboxes R) (receiver : Int) (added : List (Message R)) :
    (inboxes.set receiver (inboxes.get receiver ++ added)).messages.Perm
      (inboxes.messages ++ added) := by
  induction inboxes with
  | nil => simp [set, messages, get]
  | cons entry rest ih =>
      obtain ⟨owner, inbox⟩ := entry
      by_cases howner : owner = receiver
      · rw [get_cons, if_pos howner.symm, set, if_pos (by simpa using howner)]
        simp only [messages, List.flatMap_cons, List.append_assoc]
        exact List.perm_append_comm.append_left inbox
      · rw [get_cons, if_neg (Ne.symm howner), set, if_neg (by simpa using howner)]
        simp only [messages, List.flatMap_cons, List.append_assoc]
        exact ih.append_left inbox

theorem topUpFrom_perm (wanted : Nat) (receivers : List Int) (inboxes : Inboxes R)
    (lost : List (Message R)) :
    ((topUpFrom wanted receivers inboxes lost).1.messages ++
        (topUpFrom wanted receivers inboxes lost).2).Perm (inboxes.messages ++ lost) := by
  induction receivers generalizing inboxes lost with
  | nil => exact .refl _
  | cons receiver receivers ih =>
      rw [topUpFrom]
      refine (ih _ _).trans ?_
      refine ((Inboxes.messages_set inboxes receiver _).append_right _).trans ?_
      rw [List.append_assoc]
      exact (takeFor_perm receiver _ lost).append_left _

theorem topUpFrom_snd_sublist (wanted : Nat) (receivers : List Int) (inboxes : Inboxes R)
    (lost : List (Message R)) : (topUpFrom wanted receivers inboxes lost).2.Sublist lost := by
  induction receivers generalizing inboxes lost with
  | nil => exact .refl _
  | cons receiver receivers ih => exact (ih _ _).trans (takeFor_snd_sublist receiver _ lost)

/-- Of the messages to one of the receivers those are still lost which its inbox was not
short of; those to anyone else all are. -/
theorem addressedTo_topUpFrom_snd (wanted : Nat) {receivers : List Int}
    (hnodup : receivers.Nodup) (inboxes : Inboxes R) (lost : List (Message R)) (id : Int) :
    addressedTo id (topUpFrom wanted receivers inboxes lost).2 =
      if id ∈ receivers then (addressedTo id lost).drop (wanted - (inboxes.get id).length)
      else addressedTo id lost := by
  induction receivers generalizing inboxes lost with
  | nil => simp [topUpFrom]
  | cons receiver receivers ih =>
      obtain ⟨hfresh, hnodup⟩ := List.nodup_cons.mp hnodup
      rw [topUpFrom, ih hnodup, Inboxes.get_set]
      by_cases h : id = receiver
      · subst h
        rw [if_neg hfresh, if_pos List.mem_cons_self, addressedTo_takeFor_snd_self]
      · rw [if_neg h, addressedTo_takeFor_snd h]
        simp only [List.mem_cons, h, false_or]

/-! ## The top-up -/

/-- What a top-up promises of the inboxes and the lost messages: the inbox of each
process keeps what it held, and gets after it the first messages that were lost on the
way to the process, as many as it is short of and there are; these are no longer lost,
all others are, in their order; and no message is added or missing on the whole. -/
structure ToppedUp (guarantee : Guarantee) (count : Nat) (inboxes : Inboxes R)
    (lost : List (Message R)) (topped : Inboxes R) (left : List (Message R)) : Prop where
  length : ∀ id ∈ processIds count, (topped.get id).length =
    max (inboxes.get id).length
      (min (need guarantee count) ((inboxes.get id).length + (addressedTo id lost).length))
  added : ∀ id ∈ processIds count, topped.get id = inboxes.get id ++
    (addressedTo id lost).take (need guarantee count - (inboxes.get id).length)
  untouched : ∀ id ∉ processIds count, topped.get id = inboxes.get id
  inOrder : left.Sublist lost
  remaining : ∀ id ∈ processIds count, addressedTo id left =
    (addressedTo id lost).drop (need guarantee count - (inboxes.get id).length)
  passed : ∀ id ∉ processIds count, addressedTo id left = addressedTo id lost
  conserved : (topped.messages ++ left).Perm (inboxes.messages ++ lost)

theorem toppedUp_topUp (guarantee : Guarantee) (count : Nat) (inboxes : Inboxes R)
    (lost : List (Message R)) :
    ToppedUp guarantee count inboxes lost (topUp guarantee count inboxes lost).1
      (topUp guarantee count inboxes lost).2 := by
  have hinboxes : ∀ id ∈ processIds count, (topUp guarantee count inboxes lost).1.get id =
      inboxes.get id ++
        (addressedTo id lost).take (need guarantee count - (inboxes.get id).length) :=
    fun id hid => get_topUp guarantee inboxes lost hid
  have hleft : ∀ id, addressedTo id (topUp guarantee count inboxes lost).2 =
      if id ∈ processIds count then
        (addressedTo id lost).drop (need guarantee count - (inboxes.get id).length)
      else addressedTo id lost := by
    intro id
    by_cases hnone : guarantee = .none
    · subst hnone
      simp [topUp, need]
    · rw [topUp_of_ne_none hnone]
      exact addressedTo_topUpFrom_snd _ (nodup_processIds count) inboxes lost id
  have hall : (topUp guarantee count inboxes lost).2.Sublist lost ∧
      ((topUp guarantee count inboxes lost).1.messages ++
        (topUp guarantee count inboxes lost).2).Perm (inboxes.messages ++ lost) := by
    by_cases hnone : guarantee = .none
    · subst hnone
      exact ⟨.refl _, .refl _⟩
    · rw [topUp_of_ne_none hnone]
      exact ⟨topUpFrom_snd_sublist _ _ inboxes lost, topUpFrom_perm _ _ inboxes lost⟩
  exact {
    length := by
      intro id hid
      rw [hinboxes id hid, List.length_append, List.length_take]
      omega
    added := hinboxes
    untouched := fun id hid => get_topUp_of_not_mem guarantee inboxes lost hid
    inOrder := hall.1
    remaining := fun id hid => (hleft id).trans (if_pos hid)
    passed := fun id hid => (hleft id).trans (if_neg hid)
    conserved := hall.2 }

/-- The top-up is exact and conservative, whatever the inboxes and the lost messages
are.  Fetching messages one at a time, receiver after receiver, comes to an end; it comes
to no other end than the top-up; and there the inboxes and the messages that are left are
as the guarantee promises. -/
theorem topUp_exact_and_conservative (guarantee : Guarantee) (count : Nat) (inboxes : Inboxes R)
    (lost : List (Message R)) :
    (∃ topped left, MakesUp guarantee count inboxes lost topped left) ∧
    ∀ topped left, MakesUp guarantee count inboxes lost topped left →
      topUp guarantee count inboxes lost = (topped, left) ∧
        ToppedUp guarantee count inboxes lost topped left := by
  refine ⟨⟨_, _, makesUp_iff.mpr rfl⟩, ?_⟩
  intro topped left hmakes
  have hends := makesUp_iff.mp hmakes
  have htopped := toppedUp_topUp guarantee count inboxes lost
  rw [hends] at htopped
  exact ⟨hends, htopped⟩

/-- A majority of three is two messages.  The first process is short of one of them and
passes the message to the second one by; the second process has no inbox and gets the
first two of three; and the third one is short of nothing. -/
theorem mixedLosses_topped_up :
    let inboxes : Inboxes Nat := [(1, [⟨2, 1, 7⟩]), (3, [⟨1, 3, 5⟩, ⟨2, 3, 7⟩])]
    let lost : List (Message Nat) :=
      [⟨3, 2, 8⟩, ⟨3, 1, 8⟩, ⟨1, 2, 5⟩, ⟨3, 1, 9⟩, ⟨2, 3, 6⟩, ⟨1, 2, 4⟩]
    let topped : Inboxes Nat :=
      [(1, [⟨2, 1, 7⟩, ⟨3, 1, 8⟩]), (3, [⟨1, 3, 5⟩, ⟨2, 3, 7⟩]), (2, [⟨3, 2, 8⟩, ⟨1, 2, 5⟩])]
    let left : List (Message Nat) := [⟨3, 1, 9⟩, ⟨2, 3, 6⟩, ⟨1, 2, 4⟩]
    MakesUp .majority 3 inboxes lost topped left ∧
      ToppedUp .majority 3 inboxes lost topped left := by
  intro inboxes lost topped left
  have hmakes : MakesUp .majority 3 inboxes lost topped left := makesUp_iff.mpr (by decide)
  exact ⟨hmakes, ((topUp_exact_and_conservative .majority 3 inboxes lost).2 _ _ hmakes).2⟩

end LossyConsensus.Network
