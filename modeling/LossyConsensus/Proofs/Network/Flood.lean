/-
# The flood of a round

Which messages a round starts with: one from every process to every other one,
each carrying the value that its sender holds.  A message is therefore known by
its two ends, and nothing later in a round changes them.
-/

import LossyConsensus.Network.Message
import Mathlib.Data.List.Nodup

namespace LossyConsensus.Network

variable {R : Type}

/-! ## Lists without repetition -/

theorem eraseDups_of_nodup {ids : List Int} (h : ids.Nodup) : ids.eraseDups = ids := by
  induction ids with
  | nil => rfl
  | cons first rest ih =>
      obtain ⟨hfresh, hrest⟩ := List.nodup_cons.mp h
      have hkept : rest.filter (fun id => !id == first) = rest := by
        refine List.filter_eq_self.mpr fun id hid => ?_
        have hne : id ≠ first := fun heq => hfresh (heq ▸ hid)
        simpa using hne
      rw [List.eraseDups_cons, hkept, ih hrest]

/-- Among items with distinct keys there is one with the key of a given item, and it
stands alone. -/
theorem filter_key_eq_singleton {α κ : Type} [BEq κ] [LawfulBEq κ] (key : α → κ)
    {items : List α} (hnodup : (items.map key).Nodup) {item : α} (hmem : item ∈ items) :
    items.filter (fun other => key other == key item) = [item] := by
  induction items with
  | nil => cases hmem
  | cons first rest ih =>
      rw [List.map_cons, List.nodup_cons] at hnodup
      obtain ⟨hfresh, hrest⟩ := hnodup
      rcases List.mem_cons.mp hmem with rfl | hmem
      · have hnone : rest.filter (fun other => key other == key item) = [] := by
          rw [List.filter_eq_nil_iff]
          intro other hother heq
          exact hfresh (List.mem_map.mpr ⟨other, hother, by simpa using heq⟩)
        rw [List.filter_cons_of_pos (by simp), hnone]
      · have hne : key first ≠ key item := by
          intro heq
          exact hfresh (List.mem_map.mpr ⟨item, hmem, heq.symm⟩)
        rw [List.filter_cons_of_neg (by simpa using hne)]
        exact ih hrest hmem

/-! ## Numbers of processes -/

@[simp]
theorem mem_processIds {count : Nat} {id : Int} :
    id ∈ processIds count ↔ 1 ≤ id ∧ id ≤ count := by
  simp only [processIds, List.mem_map, List.mem_range]
  constructor
  · rintro ⟨k, hk, rfl⟩
    omega
  · rintro ⟨hlow, hhigh⟩
    exact ⟨(id - 1).toNat, by omega, by omega⟩

theorem nodup_processIds (count : Nat) : (processIds count).Nodup := by
  refine List.nodup_range.map ?_
  intro first second (h : (first : Int) + 1 = (second : Int) + 1)
  omega

@[simp]
theorem length_processIds (count : Nat) : (processIds count).length = count := by
  simp [processIds]

/-! ## The two ends of a message -/

/-- The sender and the receiver of a message. -/
def Message.ends (message : Message R) : Int × Int :=
  (message.sender, message.receiver)

theorem Message.ends_eq {first second : Message R} :
    first.ends = second.ends ↔
      first.sender = second.sender ∧ first.receiver = second.receiver := by
  simp [Message.ends]

theorem Message.eq_of_ends {first second : Message R} (hends : first.ends = second.ends)
    (hpayload : first.payload = second.payload) : first = second := by
  obtain ⟨sender, receiver, payload⟩ := first
  obtain ⟨rfl, rfl⟩ := Message.ends_eq.mp hends
  exact congrArg _ hpayload

/-! ## Membership, uniqueness and size -/

theorem mem_floodFrom {count : Nat} {sender : Int} {payload : R} {message : Message R} :
    message ∈ floodFrom count sender payload ↔
      message.sender = sender ∧ message.payload = payload ∧
        message.receiver ∈ processIds count ∧ message.receiver ≠ sender := by
  obtain ⟨s, r, v⟩ := message
  simp only [floodFrom, List.mem_map, List.mem_filter, bne_iff_ne, Message.mk.injEq]
  constructor
  · rintro ⟨receiver, ⟨hmem, hne⟩, rfl, rfl, rfl⟩
    exact ⟨rfl, rfl, hmem, hne⟩
  · rintro ⟨rfl, rfl, hmem, hne⟩
    exact ⟨r, ⟨hmem, hne⟩, rfl, rfl, rfl⟩

/-- A message of the flood carries the value of its sender to another
process. -/
theorem mem_flood {values : List R} {message : Message R} :
    message ∈ flood values ↔
      1 ≤ message.sender ∧ values[(message.sender - 1).toNat]? = some message.payload ∧
        message.receiver ∈ processIds values.length ∧ message.receiver ≠ message.sender := by
  simp only [flood, List.mem_flatMap, mem_floodFrom, Prod.exists,
    List.mk_mem_zipIdx_iff_le_and_getElem?_sub]
  constructor
  · rintro ⟨value, sender, ⟨hsender, hvalue⟩, hs, rfl, hmem, hne⟩
    have hindex : (message.sender - 1).toNat = sender - 1 := by omega
    exact ⟨by omega, by rw [hindex]; exact hvalue, hmem, by rw [hs]; exact hne⟩
  · rintro ⟨hsender, hvalue, hmem, hne⟩
    have hindex : message.sender.toNat - 1 = (message.sender - 1).toNat := by omega
    refine ⟨message.payload, message.sender.toNat, ⟨by omega, ?_⟩, by omega, rfl, hmem, by omega⟩
    rw [hindex]
    exact hvalue

theorem sender_mem_processIds_of_mem_flood {values : List R} {message : Message R}
    (h : message ∈ flood values) : message.sender ∈ processIds values.length := by
  obtain ⟨hsender, hvalue, _, _⟩ := mem_flood.mp h
  obtain ⟨hlt, _⟩ := List.getElem?_eq_some_iff.mp hvalue
  rw [mem_processIds]
  omega

theorem nodup_ends_floodFrom (count : Nat) (sender : Int) (payload : R) :
    ((floodFrom count sender payload).map Message.ends).Nodup := by
  have hinj : Function.Injective fun receiver : Int => (sender, receiver) := by
    intro first second h
    simpa using h
  simpa [floodFrom, Message.ends, Function.comp_def] using
    ((nodup_processIds count).filter _).map hinj

/-- No two messages of the flood have both ends in common. -/
theorem nodup_ends_flood (values : List R) : ((flood values).map Message.ends).Nodup := by
  rw [flood, List.map_flatMap, List.nodup_flatMap]
  refine ⟨fun pair _ => nodup_ends_floodFrom _ _ _, ?_⟩
  have hsenders : (values.zipIdx 1).Pairwise fun first second => first.2 ≠ second.2 := by
    have hnumbers : ((values.zipIdx 1).map Prod.snd).Nodup := by
      rw [List.zipIdx_map_snd]
      exact List.nodup_range'
    exact List.pairwise_map.mp hnumbers
  refine hsenders.imp ?_
  intro first second hne
  refine List.disjoint_left.mpr ?_
  intro ends hfirst hsecond
  obtain ⟨one, hone, rfl⟩ := List.mem_map.mp hfirst
  obtain ⟨two, htwo, heq⟩ := List.mem_map.mp hsecond
  have hs := (mem_floodFrom.mp hone).1
  have hs' := (mem_floodFrom.mp htwo).1
  have := (Message.ends_eq.mp heq).1
  omega

end LossyConsensus.Network
