/-
# What predicates count

The predicates that ask what a process has received count in different ways: most of
them count messages, one counts senders other than the process itself, and one looks for
a sender.  Where the inbox holds at most one message from each other process these
counts agree, and the predicates say of each other what their names suggest.
-/

import LossyConsensus.Proofs.Network.Flood
import LossyConsensus.Protocol.Evaluate
import Mathlib.Data.List.Perm.Subperm

namespace LossyConsensus.Protocol

open LossyConsensus.Network

variable {R : Type}

/-- A view of one of `count` processes whose inbox holds at most one message from each
other process. -/
structure View.Orderly (count : Nat) (view : View R) : Prop where
  processes : view.processes = count
  hasHalf : view.hasHalf = true
  viewer : view.id ∈ processIds count
  oneEach : view.senders.Nodup
  others : ∀ sender ∈ view.senders, sender ∈ processIds count ∧ sender ≠ view.id

namespace View

variable {view : View R} {count : Nat}

/-! ## One message from each sender -/

/-- The message of a sender is the only one from it. -/
theorem filter_sender (hone : view.senders.Nodup) {sender : Int} {value : R}
    (hmem : (sender, value) ∈ view.inbox) :
    view.inbox.filter (fun message => message.1 == sender) = [(sender, value)] :=
  filter_key_eq_singleton Prod.fst hone hmem

/-- So it is the first one from it. -/
theorem find?_sender (hone : view.senders.Nodup) {sender : Int} {value : R}
    (hmem : (sender, value) ∈ view.inbox) :
    view.inbox.find? (fun message => message.1 == sender) = some (sender, value) := by
  rw [← List.head?_filter, filter_sender hone hmem, List.head?_cons]

theorem exists_mem_inbox {sender : Int} (h : sender ∈ view.senders) :
    ∃ value, (sender, value) ∈ view.inbox := by
  obtain ⟨⟨_, value⟩, hmem, rfl⟩ := List.mem_map.mp h
  exact ⟨value, hmem⟩

@[simp]
theorem length_senders (view : View R) : view.senders.length = view.inbox.length :=
  List.length_map _

/-- Where nobody sends twice, other senders are as many as there are messages from
others. -/
theorem otherSenders_of_nodup (hone : view.senders.Nodup) :
    view.otherSenders = (view.senders.filter (· != view.id)).length := by
  rw [otherSenders, eraseDups_of_nodup (hone.filter _)]

/-! ## Counting -/

namespace Orderly

theorem otherSenders_eq (h : view.Orderly count) : view.otherSenders = view.inbox.length := by
  have hall : view.senders.filter (· != view.id) = view.senders :=
    List.filter_eq_self.mpr fun sender hsender => bne_iff_ne.mpr (h.others sender hsender).2
  rw [otherSenders_of_nodup h.oneEach, hall, length_senders]

theorem senders_subset (h : view.Orderly count) :
    view.senders ⊆ (processIds count).erase view.id := by
  intro sender hsender
  obtain ⟨hprocess, hne⟩ := h.others sender hsender
  exact (nodup_processIds count).mem_erase_iff.mpr ⟨hne, hprocess⟩

theorem length_others (h : view.Orderly count) :
    ((processIds count).erase view.id).length + 1 = count := by
  rw [List.length_erase_of_mem h.viewer, length_processIds]
  have := mem_processIds.mp h.viewer
  omega

/-- There is room for one message from each other process. -/
theorem length_lt (h : view.Orderly count) : view.inbox.length < count := by
  have hle := (List.subperm_of_subset h.oneEach h.senders_subset).length_le
  have hothers := h.length_others
  rw [length_senders] at hle
  omega

/-- The inbox is full if and only if everybody else has sent. -/
theorem length_eq_iff (h : view.Orderly count) :
    view.inbox.length + 1 = count ↔
      ∀ sender ∈ processIds count, sender ≠ view.id → sender ∈ view.senders := by
  have hsub := List.subperm_of_subset h.oneEach h.senders_subset
  have hothers := h.length_others
  constructor
  · intro hfull sender hsender hne
    have hperm := hsub.perm_of_length_le (by rw [length_senders]; omega)
    exact hperm.mem_iff.mpr ((nodup_processIds count).mem_erase_iff.mpr ⟨hne, hsender⟩)
  · intro hsent
    have hsubset : (processIds count).erase view.id ⊆ view.senders := by
      intro sender hsender
      obtain ⟨hne, hprocess⟩ := (nodup_processIds count).mem_erase_iff.mp hsender
      exact hsent sender hprocess hne
    have hle := (List.subperm_of_subset ((nodup_processIds count).erase view.id) hsubset).length_le
    have hlt := h.length_lt
    rw [length_senders] at hle
    omega

end Orderly

end View

/-! ## Predicates -/

variable [Scalar R] {view : View R} {count : Nat}

/-- The predicates about what is received agree in a view of one of `count` processes.
All have sent if and only if a message is there from each other process, and that is the
same as there being `count - 1` messages; a majority is more than half of `count`; and to
receive something different is to receive something.  A process that has received from
another one can use the value of the only message from it, and of two processes one that
has received something different can use that. -/
structure View.Coherent (count : Nat) (view : View R) : Prop where
  all : (Predicate.receivedAll : Predicate R).eval view =
    .ok (view.inbox.length + 1 = count)
  all_eq_atLeast : (Predicate.receivedAll : Predicate R).eval view =
    (Predicate.receivedAtLeast ((count : Int) - 1) : Predicate R).eval view
  all_iff_from : (Predicate.receivedAll : Predicate R).eval view = .ok true ↔
    ∀ sender ∈ processIds count, sender ≠ view.id →
      (Predicate.receivedFrom sender : Predicate R).eval view = .ok true
  majority_eq_atLeast : (Predicate.receivedMajority : Predicate R).eval view =
    (Predicate.receivedAtLeast ((count / 2 + 1 : Nat) : Int) : Predicate R).eval view
  any_eq_atLeast : (Predicate.receivedAny : Predicate R).eval view =
    (Predicate.receivedAtLeast 1 : Predicate R).eval view
  any_of_diff : ∀ name, (Predicate.receivedDiff name : Predicate R).eval view = .ok true →
    (Predicate.receivedAny : Predicate R).eval view = .ok true
  valueFrom_of_from : ∀ sender, (Predicate.receivedFrom sender : Predicate R).eval view = .ok true →
    ∃ value, view.inbox.filter (fun message => message.1 == sender) = [(sender, value)] ∧
      (Expr.valueFrom sender).eval view = .ok value
  other_of_diff : count = 2 → ∀ name,
    (Predicate.receivedDiff name : Predicate R).eval view = .ok true →
      ∃ sender value, view.inbox = [(sender, value)] ∧ (Expr.other : Expr R).eval view = .ok value

theorem receivedAny_of_receivedDiff {name : String}
    (h : (Predicate.receivedDiff name : Predicate R).eval view = .ok true) :
    view.differing ≠ [] ∧ (Predicate.receivedAny : Predicate R).eval view = .ok true := by
  have hdiffers : view.differing ≠ [] := by simpa [Predicate.eval] using h
  refine ⟨hdiffers, ?_⟩
  have hne : view.inbox ≠ [] := by
    intro hempty
    refine hdiffers ?_
    rw [View.differing, View.received, hempty]
    rfl
  simpa [Predicate.eval] using hne

/-- A single message that differs is the one value to be used. -/
theorem other_eq_of_singleton {sender : Int} {value : R} (hinbox : view.inbox = [(sender, value)])
    (hdiffers : view.differing ≠ []) : (Expr.other : Expr R).eval view = .ok value := by
  have hreceived : view.received = [value] := by rw [View.received, hinbox, List.map_singleton]
  have hdiffering : view.differing = [value] := by
    rw [View.differing, hreceived] at hdiffers ⊢
    by_cases hsame : Scalar.eq value view.before = true
    · simp [hsame] at hdiffers
    · simp [hsame]
  rw [Expr.eval, View.other, hdiffering]
  rfl

theorem View.Orderly.coherent (h : view.Orderly count) : view.Coherent count := by
  have hlt := h.length_lt
  have hall : (Predicate.receivedAll : Predicate R).eval view =
      .ok (view.inbox.length + 1 = count) := by
    rw [Predicate.eval, h.otherSenders_eq, h.processes]
    exact congrArg Except.ok (decide_eq_decide.mpr (by omega))
  have hfrom : ∀ sender, (Predicate.receivedFrom sender : Predicate R).eval view = .ok true ↔
      sender ∈ view.senders := by
    intro sender
    rw [Predicate.eval, Except.ok.injEq, List.contains_iff_mem]
  exact {
    all := hall
    all_eq_atLeast := by
      rw [hall, Predicate.eval]
      exact congrArg Except.ok (decide_eq_decide.mpr (by omega))
    all_iff_from := by
      rw [hall, Except.ok.injEq, decide_eq_true_iff, h.length_eq_iff]
      exact forall₂_congr fun sender _ => imp_congr_right fun _ => (hfrom sender).symm
    majority_eq_atLeast := by
      have hprocesses := h.processes
      refine Eq.trans (if_pos h.hasHalf) (congrArg Except.ok (decide_eq_decide.mpr ?_))
      omega
    any_eq_atLeast := by
      rw [Predicate.eval, Predicate.eval]
      refine congrArg Except.ok (Bool.eq_iff_iff.mpr ?_)
      rw [Bool.not_eq_true', List.isEmpty_eq_false_iff, ← List.length_pos_iff, decide_eq_true_iff]
      omega
    any_of_diff := fun _ hdiff => (receivedAny_of_receivedDiff hdiff).2
    valueFrom_of_from := by
      intro sender hsender
      obtain ⟨value, hmem⟩ := View.exists_mem_inbox ((hfrom sender).mp hsender)
      refine ⟨value, View.filter_sender h.oneEach hmem, ?_⟩
      rw [Expr.eval, View.valueFrom, View.find?_sender h.oneEach hmem]
    other_of_diff := by
      rintro rfl name hdiff
      obtain ⟨hdiffers, hany⟩ := receivedAny_of_receivedDiff hdiff
      have hne : view.inbox ≠ [] := by simpa [Predicate.eval] using hany
      have hpos := List.length_pos_iff.mpr hne
      have hone : view.inbox.length = 1 := by omega
      obtain ⟨⟨sender, value⟩, hinbox⟩ := List.length_eq_one_iff.mp hone
      exact ⟨sender, value, hinbox, other_eq_of_singleton hinbox hdiffers⟩ }

end LossyConsensus.Protocol
