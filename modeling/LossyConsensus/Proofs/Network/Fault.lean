/-
# What faults do with messages

A fault model drops messages and changes their values, and that is all: whoever
sent a message and whomever it is for, it keeps both ends, and no message
appears that was not sent.  A composite lets a message pass only if each of its
parts does, however deep they are nested.

Crashes, partitions and silent liars take messages away and change none: whatever
such faults leave of a message is the message itself.
-/

import LossyConsensus.Network.Fault
import LossyConsensus.Proofs.Except
import LossyConsensus.Proofs.Network.Flood

namespace LossyConsensus.Network

namespace Fault

variable {R : Type}

/-- A fault model that is another one or stands somewhere inside of it. -/
inductive IsPart : Fault R → Fault R → Prop
  | whole (fault : Fault R) : IsPart fault fault
  | member {part model : Fault R} {models : List (Fault R)} (hmem : model ∈ models)
      (hpart : IsPart part model) : IsPart part (.composite models)

/-- A fault model that changes no value. -/
inductive DropsOnly : Fault R → Prop
  | none : DropsOnly .none
  | crash (probability : R) (round seed : Int) : DropsOnly (.crash probability round seed)
  | silent (nodes : List Int) : DropsOnly (.byzantine nodes .silent)
  | partition (round duration : Int) (groups : List (List Int)) :
      DropsOnly (.partition round duration groups)
  | composite {models : List (Fault R)} (h : ∀ model ∈ models, DropsOnly model) :
      DropsOnly (.composite models)

variable [Scalar R]

/-! ## Permission to pass -/

theorem passes_of_allPass {models : List (Fault R)} {sender receiver round : Int}
    (h : allPass models sender receiver round = .ok true) {model : Fault R}
    (hmem : model ∈ models) : model.passes sender receiver round = .ok true := by
  induction models with
  | nil => cases hmem
  | cons first rest ih =>
      rw [allPass, bind_eq_ok] at h
      obtain ⟨passed, hpassed, hrest⟩ := h
      cases passed with
      | false => cases hrest
      | true =>
          rcases List.mem_cons.mp hmem with rfl | hmem
          · exact hpassed
          · exact ih hrest hmem

/-- What a fault model lets pass, each of its parts lets pass. -/
theorem passes_of_isPart {part fault : Fault R} (hpart : part.IsPart fault)
    {sender receiver round : Int} (h : fault.passes sender receiver round = .ok true) :
    part.passes sender receiver round = .ok true := by
  induction hpart with
  | whole => exact h
  | member hmem _ ih =>
      rw [passes] at h
      exact ih (passes_of_allPass h hmem)

/-! ## Changes of values -/

theorem ends_lie {strategy : Strategy} {message changed : Message R} {round : Int}
    (h : lie strategy message round = .ok (some changed)) : changed.ends = message.ends := by
  cases strategy with
  | silent => cases h
  | maxValue => cases h; rfl
  | minValue => cases h; rfl
  | opposite => cases h; rfl
  | random =>
      rw [lie, bind_eq_ok] at h
      obtain ⟨generator, _, h⟩ := h
      cases h
      rfl

theorem ends_corrupt {probability : R} {how : Corruption} {seed : Int}
    {message changed : Message R} {round : Int}
    (h : corrupt probability how seed message round = .ok changed) :
    changed.ends = message.ends := by
  rw [corrupt, bind_eq_ok] at h
  obtain ⟨generator, _, h⟩ := h
  dsimp only at h
  split at h
  · cases h
    rfl
  · cases h
    rfl

mutual

/-- A message that is sent keeps its sender and its receiver. -/
theorem ends_transform : ∀ (fault : Fault R) {message changed : Message R} {round : Int},
    fault.transform message round = .ok (some changed) → changed.ends = message.ends
  | .none, _, _, _, h => by cases h; rfl
  | .crash _ _ _, _, _, _, h => by cases h; rfl
  | .partition _ _ _, _, _, _, h => by cases h; rfl
  | .byzantine nodes strategy, message, changed, round, h => by
      rw [transform] at h
      split at h
      · exact ends_lie h
      · cases h
        rfl
  | .corruption probability how seed, message, changed, round, h => by
      rw [transform, bind_eq_ok] at h
      obtain ⟨corrupted, hcorrupted, h⟩ := h
      cases h
      exact ends_corrupt hcorrupted
  | .composite models, message, changed, round, h => by
      rw [transform] at h
      exact ends_transformAll models h

/-- A message keeps its two ends through several models. -/
theorem ends_transformAll : ∀ (models : List (Fault R)) {message changed : Message R} {round : Int},
    transformAll models message round = .ok (some changed) → changed.ends = message.ends
  | [], _, _, _, h => by cases h; rfl
  | model :: rest, message, changed, round, h => by
      rw [transformAll, bind_eq_ok] at h
      obtain ⟨sent, hsent, h⟩ := h
      cases sent with
      | none => cases h
      | some between =>
          exact (ends_transformAll rest h).trans (ends_transform model hsent)

end

/-! ## A round's messages -/

/-- A message is left of another one if the fault model lets that one pass and
sends it so. -/
theorem affect_eq_some {fault : Fault R} {message changed : Message R} {round : Int} :
    fault.affect message round = .ok (some changed) ↔
      fault.passes message.sender message.receiver round = .ok true ∧
        fault.transform message round = .ok (some changed) := by
  rw [affect, bind_eq_ok]
  constructor
  · rintro ⟨passed, hpassed, h⟩
    cases passed with
    | false => cases h
    | true => exact ⟨hpassed, h⟩
  · rintro ⟨hpassed, h⟩
    exact ⟨true, hpassed, h⟩

/-- Every message that a fault model leaves was sent. -/
theorem exists_mem_of_mem_apply {fault : Fault R} {messages left : List (Message R)} {round : Int}
    (h : fault.apply messages round = .ok left) {message : Message R} (hmem : message ∈ left) :
    ∃ sent ∈ messages, fault.affect sent round = .ok (some message) := by
  rw [apply, bind_eq_ok] at h
  obtain ⟨affected, haffected, h⟩ := h
  obtain rfl := pure_eq_ok.mp h
  obtain ⟨_, hsome, rfl⟩ := List.mem_filterMap.mp hmem
  obtain ⟨index, hindex⟩ := List.mem_iff_getElem?.mp hsome
  have hall := mapM_eq_ok.mp haffected
  obtain ⟨hlt, hget⟩ := List.getElem?_eq_some_iff.mp hindex
  have hlt' : index < messages.length := by rw [hall.length_eq]; exact hlt
  refine ⟨messages[index], List.getElem_mem hlt', ?_⟩
  have hat := (List.forall₂_iff_get.mp hall).2 index hlt' hlt
  simpa only [List.get_eq_getElem, hget] using hat

/-- What is left keeps the order of what was sent, as far as the ends of the
messages show. -/
theorem map_ends_apply_sublist {fault : Fault R} {messages left : List (Message R)} {round : Int}
    (h : fault.apply messages round = .ok left) :
    (left.map Message.ends).Sublist (messages.map Message.ends) := by
  rw [apply, bind_eq_ok] at h
  obtain ⟨affected, haffected, h⟩ := h
  obtain rfl := pure_eq_ok.mp h
  have hall := mapM_eq_ok.mp haffected
  clear h haffected
  induction hall with
  | nil => exact List.Sublist.slnil
  | cons hfirst _ ih =>
      rename_i message outcome rest affected _
      cases outcome with
      | none => exact ih.cons _
      | some changed =>
          have hends : changed.ends = message.ends := ends_transform _ (affect_eq_some.mp hfirst).2
          rw [List.filterMap_cons_some (by rfl), List.map_cons, List.map_cons, hends]
          exact ih.cons_cons _

/-! ## Faults that only drop messages -/

/-- Several models leave a message as it is if each of them does. -/
theorem transformAll_eq {models : List (Fault R)} {message changed : Message R} {round : Int}
    (hmodels : ∀ model ∈ models, ∀ {message changed : Message R},
      model.transform message round = .ok (some changed) → changed = message)
    (h : transformAll models message round = .ok (some changed)) : changed = message := by
  induction models generalizing message with
  | nil =>
      cases h
      rfl
  | cons model rest ih =>
      obtain ⟨hmodel, hrest⟩ := List.forall_mem_cons.mp hmodels
      rw [transformAll, bind_eq_ok] at h
      obtain ⟨sent, hsent, h⟩ := h
      cases sent with
      | none => cases h
      | some between => exact (ih hrest h).trans (hmodel hsent)

/-- What is left of a message is the message itself. -/
theorem DropsOnly.transform_eq {fault : Fault R} (hdrops : fault.DropsOnly)
    {message changed : Message R} {round : Int}
    (h : fault.transform message round = .ok (some changed)) : changed = message := by
  induction hdrops generalizing message changed with
  | none =>
      cases h
      rfl
  | crash =>
      cases h
      rfl
  | silent nodes =>
      rw [transform] at h
      split at h
      · cases h
      · cases h
        rfl
  | partition =>
      cases h
      rfl
  | composite _ ih =>
      rw [transform] at h
      exact transformAll_eq (fun model hmem _ _ => ih model hmem) h

end Fault

end LossyConsensus.Network
