/-
# What inboxes hold

Which messages an inbox holds, each as often as it does, but not in which order.  A
top-up might put the messages that it takes anywhere into an inbox instead of at its
end: whom it takes them for, and how many, depends on lengths alone, so the inboxes then
hold the same.
-/

import LossyConsensus.Proofs.Network.Inbox
import Mathlib.Data.Multiset.Basic

namespace LossyConsensus.Network

open LossyConsensus.Protocol

variable {R : Type}

namespace Inboxes

/-- The messages of each inbox in no order. -/
def contents (inboxes : Inboxes R) : List (Int × Multiset (Message R)) :=
  inboxes.map fun (receiver, inbox) => (receiver, (inbox : Multiset (Message R)))

variable {inboxes others : Inboxes R}

theorem contents_cons (receiver : Int) (inbox : List (Message R)) (rest : Inboxes R) :
    contents ((receiver, inbox) :: rest) = (receiver, ↑inbox) :: rest.contents :=
  rfl

theorem coe_get (inboxes : Inboxes R) (id : Int) :
    (inboxes.get id : Multiset (Message R)) = (inboxes.contents.lookup id).getD 0 := by
  induction inboxes with
  | nil => rfl
  | cons entry rest ih =>
      obtain ⟨owner, inbox⟩ := entry
      rw [get_cons, contents_cons, List.lookup_cons]
      by_cases h : id = owner
      · rw [if_pos h, beq_iff_eq.mpr h, Option.getD_some]
      · rw [if_neg h, beq_false_of_ne h, ih]

/-- Inboxes that hold the same differ in order only. -/
theorem get_perm_of_contents (h : inboxes.contents = others.contents) (id : Int) :
    (inboxes.get id).Perm (others.get id) := by
  rw [← Multiset.coe_eq_coe, coe_get, coe_get, h]

theorem size_eq_of_contents (h : inboxes.contents = others.contents) :
    inboxes.size = others.size := by
  have hsize : ∀ inboxes : Inboxes R,
      inboxes.size = (inboxes.contents.map fun (_, held) => held.card).sum := by
    intro inboxes
    rw [size, contents, List.map_map]
    rfl
  rw [hsize, hsize, h]

/-- They still do if the same messages, in any order, replace those of one receiver. -/
theorem contents_set (h : inboxes.contents = others.contents) (receiver : Int)
    {messages messages' : List (Message R)} (hmessages : messages.Perm messages') :
    (inboxes.set receiver messages).contents = (others.set receiver messages').contents := by
  have hheld : (messages : Multiset (Message R)) = messages' := Multiset.coe_eq_coe.mpr hmessages
  induction inboxes generalizing others with
  | nil =>
      obtain rfl : others = [] := List.map_eq_nil_iff.mp h.symm
      rw [set, set, contents_cons, contents_cons, hheld]
  | cons entry rest ih =>
      obtain ⟨owner, inbox⟩ := entry
      cases others with
      | nil => cases h
      | cons entry' rest' =>
          obtain ⟨owner', inbox'⟩ := entry'
          rw [contents_cons, contents_cons, List.cons.injEq, Prod.mk.injEq] at h
          obtain ⟨⟨rfl, hinbox⟩, hrest⟩ := h
          rw [set, set]
          split
          · rw [contents_cons, contents_cons, hheld, hrest]
          · rw [contents_cons, contents_cons, hinbox, ih hrest]

end Inboxes

/-- A way to fill up the inboxes of a number of processes from lost messages, as a
guarantee demands. -/
abbrev Filling (R : Type) :=
  Guarantee → Nat → Inboxes R → List (Message R) → Inboxes R

/-- The inboxes hold what they hold after the top-up. -/
def Filling.FillsAlike (fill : Filling R) : Prop :=
  ∀ guarantee count inboxes lost, (fill guarantee count inboxes lost).contents =
    (topUp guarantee count inboxes lost).1.contents

/-! ## Another place -/

/-- Top up the inboxes of the given receivers one after the other; `place` puts what is
taken into an inbox. -/
def placeFrom (place : List (Message R) → List (Message R) → List (Message R)) (wanted : Nat) :
    List Int → Inboxes R → List (Message R) → Inboxes R
  | [], inboxes, _ => inboxes
  | receiver :: receivers, inboxes, lost =>
      let inbox := inboxes.get receiver
      let (taken, left) := takeFor receiver (wanted - inbox.length) lost
      placeFrom place wanted receivers (inboxes.set receiver (place inbox taken)) left

/-- The top-up, but for the place where it puts what it takes. -/
def placing (place : List (Message R) → List (Message R) → List (Message R)) : Filling R :=
  fun guarantee count inboxes lost =>
    match guarantee with
    | .none => inboxes
    | _ => placeFrom place (need guarantee count) (processIds count) inboxes lost

variable {place : List (Message R) → List (Message R) → List (Message R)}

theorem contents_placeFrom (hplace : ∀ inbox taken, (place inbox taken).Perm (inbox ++ taken))
    (wanted : Nat) (receivers : List Int) {inboxes others : Inboxes R}
    (h : inboxes.contents = others.contents) (lost : List (Message R)) :
    (placeFrom place wanted receivers inboxes lost).contents =
      (topUpFrom wanted receivers others lost).1.contents := by
  induction receivers generalizing inboxes others lost with
  | nil => exact h
  | cons receiver receivers ih =>
      have hinbox := Inboxes.get_perm_of_contents h receiver
      rw [placeFrom, topUpFrom, hinbox.length_eq]
      refine ih (Inboxes.contents_set h receiver ?_) _
      exact (hplace _ _).trans (hinbox.append_right _)

/-- Wherever the messages are put, the inboxes hold the same. -/
theorem fillsAlike_placing (hplace : ∀ inbox taken, (place inbox taken).Perm (inbox ++ taken)) :
    (placing place).FillsAlike := by
  intro guarantee count inboxes lost
  cases guarantee with
  | none => rfl
  | atLeastOne => exact contents_placeFrom hplace _ _ rfl lost
  | majority => exact contents_placeFrom hplace _ _ rfl lost

/-- The top-up puts them at the end. -/
theorem placing_append (guarantee : Guarantee) (count : Nat) (inboxes : Inboxes R)
    (lost : List (Message R)) :
    placing (· ++ ·) guarantee count inboxes lost = (topUp guarantee count inboxes lost).1 := by
  have hfrom : ∀ wanted receivers (inboxes : Inboxes R) lost,
      placeFrom (· ++ ·) wanted receivers inboxes lost =
        (topUpFrom wanted receivers inboxes lost).1 := by
    intro wanted receivers
    induction receivers with
    | nil => exact fun _ _ => rfl
    | cons receiver receivers ih => exact fun _ _ => ih _ _
  cases guarantee with
  | none => rfl
  | atLeastOne => exact hfrom _ _ _ _
  | majority => exact hfrom _ _ _ _

end LossyConsensus.Network
