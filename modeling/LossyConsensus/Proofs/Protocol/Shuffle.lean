/-
# The order of the inbox

With exact arithmetic it does not matter in which order messages lie in an inbox that
holds at most one from each sender.  Sums, extreme values and sets of values know no
order, and whoever looks for the first message of a sender finds the only one there is.
So in a view whose inbox is shuffled everything has the value that it had before, and
what had none fails for the same reason.
-/

import LossyConsensus.Proofs.Protocol.Extreme
import LossyConsensus.Proofs.Protocol.Reception
import Mathlib.Algebra.BigOperators.Group.List.Basic

namespace LossyConsensus

/-! ## Lists of numbers -/

namespace Scalar

variable {values others : List ℚ}

theorem sum_exact_of_perm (h : values.Perm others) : sum values = sum others := by
  rw [sum_exact, sum_exact, h.sum_eq]

theorem mean_exact_of_perm (h : values.Perm others) : mean values = mean others := by
  rw [mean, mean, sum_exact_of_perm h, h.length_eq]

@[simp]
theorem any_same_exact {kept : List ℚ} {value : ℚ} :
    kept.any (same value) = true ↔ value ∈ kept := by
  rw [List.any_eq_true]
  constructor
  · rintro ⟨other, hmem, hsame⟩
    rwa [eq_exact.mp hsame]
  · exact fun hmem => ⟨value, hmem, eq_exact.mpr rfl⟩

/-- Keeping distinct values, one ends with those kept before and all that come up, each
of them once. -/
theorem distinct_from_exact (values : List ℚ) {kept : List ℚ} (hkept : kept.Nodup) :
    let all := values.foldl (fun kept value =>
      if kept.any (same value) then kept else kept ++ [value]) kept
    all.Nodup ∧ ∀ value, value ∈ all ↔ value ∈ kept ∨ value ∈ values := by
  induction values generalizing kept with
  | nil => exact ⟨hkept, fun value => by simp⟩
  | cons first rest ih =>
      dsimp only
      rw [List.foldl_cons]
      by_cases hknown : first ∈ kept
      · rw [if_pos (any_same_exact.mpr hknown)]
        obtain ⟨hnodup, hmem⟩ := ih hkept
        refine ⟨hnodup, fun value => ?_⟩
        rw [hmem, List.mem_cons]
        refine ⟨fun h => h.imp_right .inr, ?_⟩
        rintro (h | rfl | h)
        · exact .inl h
        · exact .inl hknown
        · exact .inr h
      · rw [if_neg (fun hany => hknown (any_same_exact.mp hany))]
        have happended : (kept ++ [first]).Nodup := List.concat_eq_append ▸ hkept.concat hknown
        obtain ⟨hnodup, hmem⟩ := ih happended
        refine ⟨hnodup, fun value => ?_⟩
        rw [hmem, List.mem_append, List.mem_singleton, List.mem_cons, or_assoc]

/-- The distinct ones of some values are the same, whatever their order. -/
theorem distinct_exact_of_perm (h : values.Perm others) :
    (distinct values).Perm (distinct others) := by
  obtain ⟨hnodup, hmem⟩ := distinct_from_exact values List.nodup_nil
  obtain ⟨hnodup', hmem'⟩ := distinct_from_exact others List.nodup_nil
  refine (List.perm_ext_iff_of_nodup hnodup hnodup').mpr fun value => ?_
  rw [hmem, hmem', h.mem_iff]

end Scalar

namespace Protocol

/-- An aggregate does not depend on the order of what it ranges over. -/
theorem Aggregation.apply_of_perm (how : Aggregation) {values others : List ℚ}
    (h : values.Perm others) : how.apply values = how.apply others := by
  cases values with
  | nil => rw [h.nil_eq]
  | cons first rest =>
      cases others with
      | nil => cases h.length_eq
      | cons first' rest' =>
          refine congrArg Except.ok ?_
          cases how with
          | sum => exact Scalar.sum_exact_of_perm h
          | avg => exact Scalar.mean_exact_of_perm h
          | min => exact pick_exact_of_perm .least h
          | max => exact pick_exact_of_perm .greatest h
          | count => exact congrArg Scalar.ofNat h.length_eq

/-! ## Views -/

section Shuffled

variable {view : View ℚ} {inbox : List (Int × ℚ)} (hperm : inbox.Perm view.inbox)

include hperm

namespace View

theorem received_shuffled : ({ view with inbox } : View ℚ).received.Perm view.received :=
  hperm.map _

theorem senders_shuffled : ({ view with inbox } : View ℚ).senders.Perm view.senders :=
  hperm.map _

theorem differing_shuffled : ({ view with inbox } : View ℚ).differing.Perm view.differing :=
  (received_shuffled hperm).filter _

theorem withOwn_shuffled : ({ view with inbox } : View ℚ).withOwn.Perm view.withOwn :=
  (received_shuffled hperm).cons view.own

theorem receivedFrom_shuffled (senders : List Int) :
    (({ view with inbox } : View ℚ).receivedFrom senders).Perm (view.receivedFrom senders) :=
  (hperm.filter _).map _

theorem isEmpty_differing_shuffled :
    ({ view with inbox } : View ℚ).differing.isEmpty = view.differing.isEmpty :=
  (differing_shuffled hperm).isEmpty_eq

/-- There is the same one value that differs, or there are as many of them. -/
theorem other_shuffled : ({ view with inbox } : View ℚ).other = view.other := by
  have hdistinct := Scalar.distinct_exact_of_perm (differing_shuffled hperm)
  rw [View.other, View.other]
  generalize Scalar.distinct ({ view with inbox } : View ℚ).differing = values at hdistinct
  generalize Scalar.distinct view.differing = others at hdistinct
  cases others with
  | nil => rw [hdistinct.eq_nil]
  | cons first rest =>
      cases rest with
      | nil => rw [hdistinct.eq_singleton]
      | cons second rest =>
          have hlength := hdistinct.length_eq
          cases values with
          | nil => cases hlength
          | cons first' rest' =>
              cases rest' with
              | nil => cases hlength
              | cons second' rest' =>
                  exact congrArg (fun count => Except.error (EvalError.severalDiffer count)) hlength

variable (hone : view.senders.Nodup)

include hone

/-- The first message from a sender is the only one, wherever it lies. -/
theorem valueFrom_shuffled (sender : Int) :
    ({ view with inbox } : View ℚ).valueFrom sender = view.valueFrom sender := by
  have hone' := (senders_shuffled hperm).nodup_iff.mpr hone
  rw [View.valueFrom, View.valueFrom]
  by_cases hsender : sender ∈ view.senders
  · obtain ⟨value, hmem⟩ := exists_mem_inbox hsender
    rw [find?_sender hone hmem, find?_sender hone' (hperm.mem_iff.mpr hmem)]
  · have hnone : ∀ message ∈ view.inbox, ¬ (message.1 == sender) = true := by
      intro message hmessage heq
      exact hsender (List.mem_map.mpr ⟨message, hmessage, beq_iff_eq.mp heq⟩)
    rw [List.find?_eq_none.mpr hnone,
      List.find?_eq_none.mpr fun message hmessage => hnone message (hperm.mem_iff.mp hmessage)]

theorem otherSenders_shuffled :
    ({ view with inbox } : View ℚ).otherSenders = view.otherSenders := by
  rw [otherSenders_of_nodup hone,
    otherSenders_of_nodup ((senders_shuffled hperm).nodup_iff.mpr hone)]
  exact ((senders_shuffled hperm).filter _).length_eq

end View

/-- Combining one's own value with everything received, one looks at no order. -/
theorem Combination.apply_shuffled (how : Combination) :
    how.apply { view with inbox } = how.apply view := by
  have hleast := pick_exact_of_perm .least (View.withOwn_shuffled hperm)
  have hgreatest := pick_exact_of_perm .greatest (View.withOwn_shuffled hperm)
  cases how with
  | average => exact Scalar.mean_exact_of_perm (View.withOwn_shuffled hperm)
  | min => exact hleast
  | max => exact hgreatest
  | midpoint => exact congrArg₂ (fun least greatest => (least + greatest) / _) hleast hgreatest

/-! ## Evaluation -/

variable (hone : view.senders.Nodup)

include hone

/-- An expression has the same value, or fails for the same reason. -/
theorem Expr.eval_shuffled (expr : Expr ℚ) : expr.eval { view with inbox } = expr.eval view := by
  induction expr with
  | own => rfl
  | parameter name => rfl
  | literal value => rfl
  | binary op left right hleft hright => rw [Expr.eval, Expr.eval, hleft, hright]
  | aggregate how withOwn =>
      cases withOwn with
      | true => exact how.apply_of_perm (View.withOwn_shuffled hperm)
      | false => exact how.apply_of_perm (View.received_shuffled hperm)
  | aggregateFrom how senders withOwn =>
      have hvalues := View.receivedFrom_shuffled hperm senders
      cases withOwn with
      | true => exact how.apply_of_perm (hvalues.cons view.own)
      | false => exact how.apply_of_perm hvalues
  | other => exact View.other_shuffled hperm
  | valueFrom sender => exact View.valueFrom_shuffled hperm hone sender
  | foreign kind => rfl

/-- A predicate has the same truth value, or fails for the same reason: a connective
stops where it did, because the operands before it say the same. -/
theorem Predicate.eval_shuffled (predicate : Predicate ℚ) :
    predicate.eval { view with inbox } = predicate.eval view := by
  induction predicate with
  | receivedAny =>
      rw [Predicate.eval, Predicate.eval]
      exact congrArg (fun empty => Except.ok !empty) hperm.isEmpty_eq
  | receivedAll => rw [Predicate.eval, Predicate.eval, View.otherSenders_shuffled hperm hone]
  | receivedAtLeast count => rw [Predicate.eval, Predicate.eval, hperm.length_eq]
  | receivedMajority => rw [Predicate.eval, Predicate.eval, hperm.length_eq]
  | receivedDiff name =>
      rw [Predicate.eval, Predicate.eval, View.isEmpty_differing_shuffled hperm]
  | receivedFrom sender =>
      rw [Predicate.eval, Predicate.eval]
      exact congrArg Except.ok (View.senders_shuffled hperm).contains_eq
  | isLeader => rfl
  | compare op left right =>
      rw [Predicate.eval, Predicate.eval, left.eval_shuffled hperm hone,
        right.eval_shuffled hperm hone]
  | conj left right hleft hright => rw [Predicate.eval, Predicate.eval, hleft, hright]
  | disj left right hleft hright => rw [Predicate.eval, Predicate.eval, hleft, hright]
  | neg operand hoperand => rw [Predicate.eval, Predicate.eval, hoperand]
  | constant value => rfl
  | brokenNegation => rfl
  | foreign kind => rfl

/-- A rule gives the same value, or fails for the same reason. -/
theorem Rule.eval_shuffled (rule : Rule ℚ) : rule.eval { view with inbox } = rule.eval view := by
  induction rule with
  | assign target value => exact value.eval_shuffled hperm hone
  | combine how => exact congrArg Except.ok (how.apply_shuffled hperm)
  | ifDifferent different same =>
      rw [Rule.eval, Rule.eval, View.isEmpty_differing_shuffled hperm,
        different.eval_shuffled hperm hone, same.eval_shuffled hperm hone]
  | onlyIf condition rule hrule =>
      rw [Rule.eval, Rule.eval, condition.eval_shuffled hperm hone, hrule]
  | choose condition yes no hyes hno =>
      rw [Rule.eval, Rule.eval, condition.eval_shuffled hperm hone, hyes, hno]
  | foreign kind => rfl

end Shuffled

end Protocol

end LossyConsensus
