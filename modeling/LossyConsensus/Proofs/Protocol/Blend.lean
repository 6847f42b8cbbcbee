/-
# Rules that blend values

A rule may do no more than hand on values that a process has seen, its own or a
received one, or combine them in a few given ways.  Whatever holds of all values
seen, and is kept by these ways of combining them, then holds of the outcome of
the rule, whichever branches its predicates choose.
-/

import LossyConsensus.Proofs.Except
import LossyConsensus.Proofs.Protocol.Extreme

namespace LossyConsensus.Protocol

/-- Ways of combining values: aggregations in expressions, and combinations with
everything received. -/
structure Blend where
  aggregations : List Aggregation
  combinations : List Combination

/-- Choosing the least or the greatest value. -/
def Blend.selection : Blend :=
  ⟨[.min, .max], [.min, .max]⟩

/-- Taking an average or a midpoint, or choosing a value. -/
def Blend.convex : Blend :=
  ⟨[.avg, .min, .max], [.average, .min, .max, .midpoint]⟩

variable {R : Type} {blend : Blend} {inside : R → Prop}

/-- An expression that hands on a value that was seen, or combines such values. -/
def Expr.BlendsBy (blend : Blend) : Expr R → Prop
  | .own => True
  | .other => True
  | .valueFrom _ => True
  | .aggregate how _ => how ∈ blend.aggregations
  | .aggregateFrom how _ _ => how ∈ blend.aggregations
  | .parameter _ => False
  | .literal _ => False
  | .binary _ _ _ => False
  | .foreign _ => False

/-- A rule made of such expressions and combinations, with any predicates. -/
def Rule.BlendsBy (blend : Blend) : Rule R → Prop
  | .assign _ value => value.BlendsBy blend
  | .combine how => how ∈ blend.combinations
  | .ifDifferent different same => different.BlendsBy blend ∧ same.BlendsBy blend
  | .onlyIf _ rule => rule.BlendsBy blend
  | .choose _ yes no => yes.BlendsBy blend ∧ no.BlendsBy blend
  | .foreign _ => False

/-- Something holds of all values that a process has seen. -/
structure View.Sees (inside : R → Prop) (view : View R) : Prop where
  own : inside view.own
  received : ∀ value ∈ view.received, inside value

variable [Scalar R]

/-- Combining values keeps what holds of all of them. -/
structure Blend.Keeps (blend : Blend) (inside : R → Prop) : Prop where
  aggregate : ∀ how ∈ blend.aggregations, ∀ values : List R, (∀ value ∈ values, inside value) →
    ∀ result, how.apply values = .ok result → inside result
  combine : ∀ how ∈ blend.combinations, ∀ view : View R, view.Sees inside →
    inside (how.apply view)

/-! ## Evaluation -/

/-- Distinct values are some of the values. -/
theorem mem_of_mem_distinct {values : List R} {value : R} (h : value ∈ Scalar.distinct values) :
    value ∈ values := by
  have hall : ∀ value ∈ Scalar.distinct values, value ∈ values := by
    refine List.foldlRecOn (motive := fun kept => ∀ value ∈ kept, value ∈ values) values _ ?_ ?_
    · simp
    · intro kept hkept next hnext
      split
      · exact hkept
      · intro value hvalue
        rcases List.mem_append.mp hvalue with hvalue | hvalue
        · exact hkept value hvalue
        · rw [List.mem_singleton.mp hvalue]
          exact hnext
  exact hall value h

/-- The other value was received. -/
theorem View.mem_received_of_other {view : View R} {value : R} (h : view.other = .ok value) :
    value ∈ view.received := by
  rw [View.other] at h
  split at h
  · cases h
  · next only hdistinct =>
    cases h
    have hmem : value ∈ Scalar.distinct view.differing := by
      rw [hdistinct]
      exact List.mem_singleton_self _
    exact List.mem_of_mem_filter (mem_of_mem_distinct hmem)
  · cases h

omit [Scalar R] in
theorem View.mem_received_of_valueFrom {view : View R} {sender : Int} {value : R}
    (h : view.valueFrom sender = .ok value) : value ∈ view.received := by
  rw [View.valueFrom] at h
  split at h
  · next message hfound =>
    cases h
    exact List.mem_map_of_mem (List.mem_of_find?_eq_some hfound)
  · cases h

omit [Scalar R] in
theorem View.mem_received_of_receivedFrom {view : View R} {senders : List Int} {value : R}
    (h : value ∈ view.receivedFrom senders) : value ∈ view.received := by
  obtain ⟨message, hmessage, rfl⟩ := List.mem_map.mp h
  exact List.mem_map_of_mem (List.mem_of_mem_filter hmessage)

omit [Scalar R] in
/-- What holds of all values seen holds of those that an aggregation ranges
over. -/
theorem View.Sees.among {view : View R} (hsees : view.Sees inside) {values : List R}
    (hvalues : ∀ value ∈ values, value ∈ view.received) (withOwn : Bool) :
    ∀ value ∈ if withOwn then view.own :: values else values, inside value := by
  have hreceived : ∀ value ∈ values, inside value := fun value hvalue =>
    hsees.received value (hvalues value hvalue)
  cases withOwn with
  | false => exact hreceived
  | true => exact List.forall_mem_cons.mpr ⟨hsees.own, hreceived⟩

/-- The value of an expression keeps what holds of all values seen. -/
theorem Expr.BlendsBy.eval (hkeeps : blend.Keeps inside) {expr : Expr R}
    (hblends : expr.BlendsBy blend) {view : View R} (hsees : view.Sees inside) {value : R}
    (h : expr.eval view = .ok value) : inside value := by
  cases expr with
  | own =>
      cases h
      exact hsees.own
  | other => exact hsees.received value (View.mem_received_of_other h)
  | valueFrom sender => exact hsees.received value (View.mem_received_of_valueFrom h)
  | aggregate how withOwn =>
      exact hkeeps.aggregate how hblends _ (hsees.among (fun _ h => h) withOwn) value h
  | aggregateFrom how senders withOwn =>
      exact hkeeps.aggregate how hblends _
        (hsees.among (fun _ h => View.mem_received_of_receivedFrom h) withOwn) value h
  | parameter name => exact hblends.elim
  | literal constant => exact hblends.elim
  | binary op left right => exact hblends.elim
  | foreign kind => exact hblends.elim

/-- The outcome of a rule keeps what holds of all values seen. -/
theorem Rule.BlendsBy.eval (hkeeps : blend.Keeps inside) {rule : Rule R}
    (hblends : rule.BlendsBy blend) {view : View R} (hsees : view.Sees inside) {value : R}
    (h : rule.eval view = .ok value) : inside value := by
  induction rule with
  | assign target expr => exact Expr.BlendsBy.eval hkeeps hblends hsees h
  | combine how =>
      cases h
      exact hkeeps.combine how hblends view hsees
  | ifDifferent different same =>
      rw [Rule.eval] at h
      split at h
      · exact hblends.2.eval hkeeps hsees h
      · exact hblends.1.eval hkeeps hsees h
  | onlyIf condition rule ih =>
      rw [Rule.eval, bind_eq_ok] at h
      obtain ⟨holds, _, h⟩ := h
      cases holds with
      | true => exact ih hblends h
      | false =>
          cases h
          exact hsees.own
  | choose condition yes no ihyes ihno =>
      rw [Rule.eval, bind_eq_ok] at h
      obtain ⟨holds, _, h⟩ := h
      cases holds with
      | true => exact ihyes hblends.1 h
      | false => exact ihno hblends.2 h
  | foreign kind => exact hblends.elim

/-! ## Selection -/

omit [Scalar R] in
/-- Keeping the better one of two values at a time ends with one of them all. -/
theorem mem_foldl_better (better : R → R → Bool) (first : R) (rest : List R) :
    rest.foldl (fun best value => if better value best then value else best) first ∈
      first :: rest := by
  induction rest generalizing first with
  | nil => exact List.mem_singleton_self first
  | cons value rest ih =>
      rw [List.foldl_cons]
      split
      · exact List.mem_cons_of_mem _ (ih value)
      · rcases List.mem_cons.mp (ih first) with heq | hmem
        · rw [heq]
          exact List.mem_cons_self
        · exact List.mem_cons_of_mem _ (List.mem_cons_of_mem _ hmem)

/-- The extreme value of a list is one of its values, numbers or not. -/
theorem Extreme.pick_mem (extreme : Extreme) (first : R) (rest : List R) :
    extreme.pick first rest ∈ first :: rest := by
  cases extreme with
  | least => exact mem_foldl_better (fun value best => Scalar.lt value best) first rest
  | greatest => exact mem_foldl_better (fun value best => Scalar.lt best value) first rest

theorem Extreme.inside_of_apply (extreme : Extreme) {values : List R}
    (hvalues : ∀ value ∈ values, inside value) {result : R}
    (h : extreme.aggregation.apply values = .ok result) : inside result := by
  cases values with
  | nil => cases h
  | cons first rest =>
      rw [extreme.apply_aggregation] at h
      cases h
      exact hvalues _ (extreme.pick_mem first rest)

theorem View.Sees.pick {view : View R} (hsees : view.Sees inside) (extreme : Extreme) :
    inside (extreme.pick view.own view.received) :=
  List.forall_mem_cons.mpr ⟨hsees.own, hsees.received⟩ _ (extreme.pick_mem _ _)

/-- Selection keeps whatever holds of all values, since it makes no new one. -/
theorem Blend.keeps_selection (inside : R → Prop) : Blend.selection.Keeps inside := by
  constructor
  · intro how hhow values hvalues result h
    simp only [selection, List.mem_cons, List.not_mem_nil, or_false] at hhow
    rcases hhow with rfl | rfl
    · exact Extreme.inside_of_apply .least hvalues h
    · exact Extreme.inside_of_apply .greatest hvalues h
  · intro how hhow view hsees
    simp only [selection, List.mem_cons, List.not_mem_nil, or_false] at hhow
    rcases hhow with rfl | rfl
    · exact hsees.pick .least
    · exact hsees.pick .greatest

end LossyConsensus.Protocol
