/-
# Demands of delivery models

The guaranteed models are collected process by process, and a model that many
processes share is collected once.  Nothing is lost by this: whether a run meets
all of the collected demands, and whether there are any, can be told from the
models of the processes alone.
-/

import LossyConsensus.Network.Delivery
import LossyConsensus.Proofs.Network.Flood

namespace LossyConsensus.Network

namespace Assignment

variable {assignment : Assignment}

/-- Whether some process has a guaranteed model. -/
def demands (assignment : Assignment) : Bool :=
  (processIds assignment.count).any fun id => (assignment.model id).isGuaranteed

/-- Whether a run with the given message counts is what the model of each
process asks for. -/
def isMet (assignment : Assignment) (perRound : List Int) (total : Int) : Bool :=
  (processIds assignment.count).all fun id => (assignment.model id).isSatisfied perRound total

theorem model_eq_of_mem {id : Int} (hid : id ∈ processIds assignment.count) :
    assignment.model id = (assignment.own? id).getD assignment.common := by
  obtain ⟨hlow, hhigh⟩ := mem_processIds.mp hid
  rw [model, own?, if_pos (by simp [hlow, hhigh]), if_pos (by simp [hlow, hhigh])]

/-- A collected model is guaranteed and some process has it. -/
theorem exists_of_mem_guaranteedFrom {seenCommon : Bool} {ids : List Int}
    (hids : ∀ id ∈ ids, id ∈ processIds assignment.count) {found : Model}
    (h : found ∈ assignment.guaranteedFrom seenCommon ids) :
    ∃ id ∈ ids, assignment.model id = found ∧ found.isGuaranteed = true := by
  induction ids generalizing seenCommon with
  | nil => cases h
  | cons id ids ih =>
      have hmodel := model_eq_of_mem (hids id List.mem_cons_self)
      have hrest : ∀ other ∈ ids, other ∈ processIds assignment.count := by
        intro other hother
        exact hids other (List.mem_cons_of_mem _ hother)
      -- A model found among the later processes is one that some process has all the same.
      have hlater : ∀ seen, found ∈ assignment.guaranteedFrom seen ids →
          ∃ other ∈ id :: ids, assignment.model other = found ∧ found.isGuaranteed = true := by
        intro seen hfound
        obtain ⟨other, hother, hfound⟩ := ih hrest hfound
        exact ⟨other, List.mem_cons_of_mem _ hother, hfound⟩
      rw [guaranteedFrom] at h
      split at h
      · next own hown =>
        rw [hown] at hmodel
        split at h
        · next hguaranteed =>
          rcases List.mem_cons.mp h with rfl | h
          · exact ⟨id, List.mem_cons_self, hmodel, hguaranteed⟩
          · exact hlater _ h
        · exact hlater _ h
      · next hown =>
        rw [hown] at hmodel
        split at h
        · next hcommon =>
          rcases List.mem_cons.mp h with rfl | h
          · exact ⟨id, List.mem_cons_self, hmodel, (Bool.and_eq_true_iff.mp hcommon).1⟩
          · exact hlater _ h
        · exact hlater _ h

/-- The guaranteed model of a process is collected, unless it is the common one
and has been collected before. -/
theorem mem_guaranteedFrom {seenCommon : Bool} {ids : List Int}
    (hids : ∀ id ∈ ids, id ∈ processIds assignment.count) {id : Int} (hid : id ∈ ids)
    (hguaranteed : (assignment.model id).isGuaranteed = true) :
    assignment.model id ∈ assignment.guaranteedFrom seenCommon ids ∨
      seenCommon = true ∧ assignment.model id = assignment.common := by
  induction ids generalizing seenCommon with
  | nil => cases hid
  | cons first ids ih =>
      have hrest : ∀ other ∈ ids, other ∈ processIds assignment.count := by
        intro other hother
        exact hids other (List.mem_cons_of_mem _ hother)
      rw [guaranteedFrom]
      rcases List.mem_cons.mp hid with rfl | hid
      · have hmodel := model_eq_of_mem (hids id List.mem_cons_self)
        split
        · next own hown =>
          rw [hown, Option.getD_some] at hmodel
          rw [← hmodel, if_pos hguaranteed]
          exact .inl List.mem_cons_self
        · next hown =>
          rw [hown, Option.getD_none] at hmodel
          rw [hmodel] at hguaranteed ⊢
          cases seenCommon with
          | true => exact .inr ⟨rfl, rfl⟩
          | false =>
              rw [if_pos (by simp [hguaranteed])]
              exact .inl List.mem_cons_self
      · split
        · split
          · rcases ih hrest hid with hmem | hcommon
            · exact .inl (List.mem_cons_of_mem _ hmem)
            · exact .inr hcommon
          · exact ih hrest hid
        · split
          · rcases ih hrest hid with hmem | ⟨_, hcommon⟩
            · exact .inl (List.mem_cons_of_mem _ hmem)
            · rw [hcommon]
              exact .inl List.mem_cons_self
          · exact ih hrest hid

/-- The collected models are the guaranteed ones of the processes. -/
theorem mem_guaranteed {found : Model} :
    found ∈ assignment.guaranteed ↔
      ∃ id ∈ processIds assignment.count, assignment.model id = found ∧
        found.isGuaranteed = true := by
  constructor
  · exact exists_of_mem_guaranteedFrom fun _ hid => hid
  · rintro ⟨id, hid, rfl, hguaranteed⟩
    rcases mem_guaranteedFrom (fun _ hid => hid) hid hguaranteed with hmem | ⟨hseen, _⟩
    · exact hmem
    · cases hseen

/-- A model is collected just if some process has a guaranteed one. -/
theorem isEmpty_guaranteed : (!assignment.guaranteed.isEmpty) = assignment.demands := by
  rw [Bool.eq_iff_iff, Bool.not_eq_true', List.isEmpty_eq_false_iff_exists_mem, demands,
    List.any_eq_true]
  constructor
  · rintro ⟨found, hfound⟩
    obtain ⟨id, hid, rfl, hguaranteed⟩ := mem_guaranteed.mp hfound
    exact ⟨id, hid, hguaranteed⟩
  · rintro ⟨id, hid, hguaranteed⟩
    exact ⟨_, mem_guaranteed.mpr ⟨id, hid, rfl, hguaranteed⟩⟩

/-- A run meets the collected demands just if it is what the model of each
process asks for. -/
theorem isSatisfied_eq_isMet (perRound : List Int) (total : Int) :
    assignment.isSatisfied perRound total = assignment.isMet perRound total := by
  rw [Bool.eq_iff_iff, isSatisfied, isMet, List.all_eq_true, List.all_eq_true]
  constructor
  · intro h id hid
    cases hmodel : assignment.model id with
    | standard => rfl
    | broadcast mode => rfl
    | guaranteed count scope =>
        exact h _ (mem_guaranteed.mpr ⟨id, hid, hmodel, rfl⟩)
  · intro h found hfound
    obtain ⟨id, hid, rfl, _⟩ := mem_guaranteed.mp hfound
    exact h id hid

/-- Where no process has a guaranteed model, every run will do. -/
theorem isMet_of_demands_eq_false (h : assignment.demands = false) (perRound : List Int)
    (total : Int) : assignment.isMet perRound total = true := by
  rw [isMet, List.all_eq_true]
  intro id hid
  have hnone := List.any_eq_false.mp h id hid
  cases hmodel : assignment.model id with
  | standard => rfl
  | broadcast mode => rfl
  | guaranteed count scope =>
      rw [hmodel] at hnone
      exact absurd rfl hnone

end Assignment

end LossyConsensus.Network
