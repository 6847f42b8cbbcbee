/-
# Extreme values

The least value of a list and the greatest one are found alike: a value takes
the place of the best one so far if it lies beyond it.  Among numbers this finds
a value that is in the list and that all others lie on one side of.
-/

import LossyConsensus.Proofs.Scalar.Exact
import LossyConsensus.Protocol.Evaluate

namespace LossyConsensus.Protocol

open LawfulScalar

variable {R : Type} [Scalar R]

/-- The two ends of the order. -/
inductive Extreme
  | least | greatest
  deriving Repr, DecidableEq

namespace Extreme

/-- The aggregation that asks for an extreme value. -/
def aggregation : Extreme → Aggregation
  | .least => .min
  | .greatest => .max

/-- Whether a value lies at least as far out as another one. -/
def bounds (extreme : Extreme) (value other : R) : Bool :=
  match extreme with
  | .least => Scalar.le value other
  | .greatest => Scalar.le other value

/-- Whether a value lies further out than another one. -/
def beats (extreme : Extreme) (value other : R) : Bool :=
  match extreme with
  | .least => Scalar.lt value other
  | .greatest => Scalar.lt other value

/-- The extreme value of a list that is not empty. -/
def pick (extreme : Extreme) (first : R) (rest : List R) : R :=
  match extreme with
  | .least => Scalar.least first rest
  | .greatest => Scalar.greatest first rest

/-- A value of a list that lies at least as far out as all others. -/
def Attained (extreme : Extreme) (values : List R) (value : R) : Prop :=
  value ∈ values ∧ ∀ other ∈ values, extreme.bounds value other = true

/-- The one of zero and one that lies further out. -/
def far (extreme : Extreme) : R :=
  match extreme with
  | .least => Scalar.zero
  | .greatest => Scalar.ofNat 1

/-- The one of zero and one that does not lie further out. -/
def near (extreme : Extreme) : R :=
  match extreme with
  | .least => Scalar.ofNat 1
  | .greatest => Scalar.zero

theorem apply_aggregation (extreme : Extreme) (first : R) (rest : List R) :
    extreme.aggregation.apply (first :: rest) = .ok (extreme.pick first rest) := by
  cases extreme with
  | least => rfl
  | greatest => rfl

theorem pick_nil (extreme : Extreme) (first : R) : extreme.pick first [] = first := by
  cases extreme with
  | least => rfl
  | greatest => rfl

/-- A value takes the place of the best one so far if it lies further out. -/
theorem pick_cons (extreme : Extreme) (first value : R) (rest : List R) :
    extreme.pick first (value :: rest) =
      extreme.pick (if extreme.beats value first then value else first) rest := by
  cases extreme with
  | least => rfl
  | greatest => rfl

/-- The first value stays the best one if no other lies further out. -/
theorem pick_eq_first (extreme : Extreme) {first : R} {rest : List R}
    (h : ∀ value ∈ rest, extreme.beats value first = false) :
    extreme.pick first rest = first := by
  induction rest with
  | nil => exact extreme.pick_nil first
  | cons value rest ih =>
      obtain ⟨hvalue, hrest⟩ := List.forall_mem_cons.mp h
      rw [pick_cons, hvalue, if_neg Bool.false_ne_true]
      exact ih hrest

variable [LawfulScalar R]

theorem le_refl {value : R} (h : Scalar.IsNumber value) : Scalar.le value value = true := by
  cases hlt : Scalar.lt value value with
  | true => exact le_of_lt hlt
  | false => exact le_of_not_lt h h hlt

theorem bounds_refl (extreme : Extreme) {value : R} (h : Scalar.IsNumber value) :
    extreme.bounds value value = true := by
  cases extreme with
  | least => exact le_refl h
  | greatest => exact le_refl h

theorem bounds_trans {extreme : Extreme} {first second third : R}
    (h : extreme.bounds first second = true) (h' : extreme.bounds second third = true) :
    extreme.bounds first third = true := by
  cases extreme with
  | least => exact le_trans h h'
  | greatest => exact le_trans h' h

theorem bounds_of_beats {extreme : Extreme} {value other : R}
    (h : extreme.beats value other = true) : extreme.bounds value other = true := by
  cases extreme with
  | least => exact le_of_lt h
  | greatest => exact le_of_lt h

theorem bounds_of_not_beats {extreme : Extreme} {value other : R} (hvalue : Scalar.IsNumber value)
    (hother : Scalar.IsNumber other) (h : extreme.beats value other = false) :
    extreme.bounds other value = true := by
  cases extreme with
  | least => exact le_of_not_lt hother hvalue h
  | greatest => exact le_of_not_lt hvalue hother h

theorem not_beats_of_bounds {extreme : Extreme} {value other : R}
    (h : extreme.bounds other value = true) : extreme.beats value other = false := by
  cases extreme with
  | least => exact not_lt_of_le h
  | greatest => exact not_lt_of_le h

/-- The extreme value of some numbers is one of them, and lies at least as far out
as all others. -/
theorem attained_pick (extreme : Extreme) {first : R} {rest : List R}
    (hfirst : Scalar.IsNumber first) (hrest : ∀ value ∈ rest, Scalar.IsNumber value) :
    extreme.Attained (first :: rest) (extreme.pick first rest) := by
  induction rest generalizing first with
  | nil =>
      rw [pick_nil]
      refine ⟨List.mem_singleton.mpr rfl, ?_⟩
      intro other hother
      rw [List.mem_singleton.mp hother]
      exact extreme.bounds_refl hfirst
  | cons value rest ih =>
      obtain ⟨hvalue, hrest⟩ := List.forall_mem_cons.mp hrest
      rw [pick_cons]
      cases hcase : extreme.beats value first with
      | true =>
          rw [if_pos rfl]
          obtain ⟨hmem, hbounds⟩ := ih hvalue hrest
          refine ⟨List.mem_cons_of_mem _ hmem, List.forall_mem_cons.mpr ⟨?_, hbounds⟩⟩
          exact bounds_trans (hbounds value List.mem_cons_self) (bounds_of_beats hcase)
      | false =>
          rw [if_neg Bool.false_ne_true]
          obtain ⟨hmem, hbounds⟩ := ih hfirst hrest
          obtain ⟨hbest, hbounds⟩ := List.forall_mem_cons.mp hbounds
          refine ⟨?_, List.forall_mem_cons.mpr ⟨hbest, List.forall_mem_cons.mpr ⟨?_, hbounds⟩⟩⟩
          · rcases List.mem_cons.mp hmem with heq | hmem
            · rw [heq]
              exact List.mem_cons_self
            · exact List.mem_cons_of_mem _ (List.mem_cons_of_mem _ hmem)
          · exact bounds_trans hbest (bounds_of_not_beats hvalue hfirst hcase)

theorem le_one_zero : Scalar.le (Scalar.ofNat 1 : R) Scalar.zero = false := by
  refine Bool.eq_false_iff.mpr fun h => ?_
  have hlt := not_lt_of_le h
  rw [LawfulScalar.zero_lt_one] at hlt
  cases hlt

theorem bounds_near_far (extreme : Extreme) :
    extreme.bounds (extreme.near : R) extreme.far = false := by
  cases extreme with
  | least => exact le_one_zero
  | greatest => exact le_one_zero

theorem isFinite_far (extreme : Extreme) : Scalar.IsFinite (extreme.far : R) := by
  cases extreme with
  | least => exact isFinite_zero
  | greatest => exact isFinite_one

theorem isFinite_near (extreme : Extreme) : Scalar.IsFinite (extreme.near : R) := by
  cases extreme with
  | least => exact isFinite_one
  | greatest => exact isFinite_zero

end Extreme

/-! ## Exact scalars -/

/-- Among rational numbers the extreme value is one of the values, and bounds all of
them. -/
theorem attained_pick_exact (extreme : Extreme) (first : ℚ) (rest : List ℚ) :
    extreme.Attained (first :: rest) (extreme.pick first rest) :=
  extreme.attained_pick (Scalar.isNumber_exact first) fun value _ => Scalar.isNumber_exact value

/-- Numbers that bound each other are equal. -/
theorem bounds_antisymm_exact (extreme : Extreme) {first second : ℚ}
    (h : extreme.bounds first second = true) (h' : extreme.bounds second first = true) :
    first = second := by
  cases extreme with
  | least => exact le_antisymm (Scalar.le_exact.mp h) (Scalar.le_exact.mp h')
  | greatest => exact le_antisymm (Scalar.le_exact.mp h') (Scalar.le_exact.mp h)

/-- So the order of the values does not matter. -/
theorem pick_exact_of_perm (extreme : Extreme) {first first' : ℚ} {rest rest' : List ℚ}
    (h : (first :: rest).Perm (first' :: rest')) :
    extreme.pick first rest = extreme.pick first' rest' := by
  obtain ⟨hmem, hbounds⟩ := attained_pick_exact extreme first rest
  obtain ⟨hmem', hbounds'⟩ := attained_pick_exact extreme first' rest'
  exact bounds_antisymm_exact extreme (hbounds _ (h.mem_iff.mpr hmem'))
    (hbounds' _ (h.mem_iff.mp hmem))

end LossyConsensus.Protocol
