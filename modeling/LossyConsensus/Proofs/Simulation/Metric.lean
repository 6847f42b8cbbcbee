/-
# How far values lie apart

The extremes of a list are found by comparing its values one after the other, and a
double that is no number is neither below nor above anything.  Ahead of all others it
is both extremes; anywhere else it is passed over.  Apart from that the order of the
values makes no difference, not even between a zero and its negative.
-/

import LossyConsensus.Proofs.Protocol.Extreme
import LossyConsensus.Proofs.Scalar.Double
import LossyConsensus.Simulation.Run

namespace LossyConsensus.Simulation

open LossyConsensus.Protocol

/-- Whether the first of some values, if there is one, is a number. -/
def LeadsWithNumber {R : Type} [Scalar R] (values : List R) : Prop :=
  ∀ first ∈ values.head?, Scalar.IsNumber first

/-- The numbers among some values. -/
def numbers {R : Type} [Scalar R] (values : List R) : List R :=
  values.filter fun value => Scalar.eq value value

theorem leadsWithNumber_cons {R : Type} [Scalar R] {first : R} {rest : List R} :
    LeadsWithNumber (first :: rest) ↔ Scalar.IsNumber first := by
  simp [LeadsWithNumber]

theorem discrepancy_cons {R : Type} [Scalar R] (first : R) (rest : List R) :
    discrepancy (first :: rest) =
      Extreme.greatest.pick first rest - Extreme.least.pick first rest := rfl

/-! ## Doubles -/

section Doubles

variable {first first' : Float} {rest rest' : List Float}

theorem not_beats_of_not_isNumber (extreme : Extreme) {value other : Float}
    (h : ¬ (Scalar.IsNumber value ∧ Scalar.IsNumber other)) :
    extreme.beats value other = false := by
  refine Bool.eq_false_iff.mpr fun hbeats => h ?_
  cases extreme with
  | least => exact Double.isNumber_of_le (LawfulScalar.le_of_lt hbeats)
  | greatest => exact (Double.isNumber_of_le (LawfulScalar.le_of_lt hbeats)).symm

/-- After the first value, what is no number is passed over. -/
theorem pick_numbers (extreme : Extreme) (first : Float) (rest : List Float) :
    extreme.pick first (numbers rest) = extreme.pick first rest := by
  induction rest generalizing first with
  | nil => rfl
  | cons value rest ih =>
      rw [extreme.pick_cons, numbers, List.filter_cons]
      cases hvalue : Scalar.eq value value with
      | true => rw [if_pos rfl, extreme.pick_cons]; exact ih _
      | false =>
          have hnot : ¬ Scalar.IsNumber value := Bool.eq_false_iff.mp hvalue
          rw [if_neg Bool.false_ne_true, not_beats_of_not_isNumber extreme fun h => hnot h.1,
            if_neg Bool.false_ne_true]
          exact ih _

/-- A value that is no number is both extremes of a list that it leads. -/
theorem pick_of_not_isNumber (extreme : Extreme) (h : ¬ Scalar.IsNumber first) :
    extreme.pick first rest = first :=
  extreme.pick_eq_first fun _ _ => not_beats_of_not_isNumber extreme fun hboth => h hboth.2

/-- The extremes of numbers stand at the same place in whatever order the numbers are. -/
theorem place_pick_of_perm (extreme : Extreme) (hperm : (first :: rest).Perm (first' :: rest'))
    (hnumbers : ∀ value ∈ first :: rest, Scalar.IsNumber value) :
    Double.place (extreme.pick first rest) = Double.place (extreme.pick first' rest') := by
  obtain ⟨hfirst, hrest⟩ := List.forall_mem_cons.mp hnumbers
  obtain ⟨hfirst', hrest'⟩ :=
    List.forall_mem_cons.mp fun value hvalue => hnumbers value (hperm.mem_iff.mpr hvalue)
  obtain ⟨hmem, hbounds⟩ := extreme.attained_pick hfirst hrest
  obtain ⟨hmem', hbounds'⟩ := extreme.attained_pick hfirst' hrest'
  have hthere := hbounds _ (hperm.mem_iff.mpr hmem')
  have hback := hbounds' _ (hperm.mem_iff.mp hmem)
  cases extreme with
  | least => exact Double.place_eq_of_le_of_le hthere hback
  | greatest => exact Double.place_eq_of_le_of_le hback hthere

/-- If the greatest and the least of some numbers stand at one place, no number lies
further out than the first one, so that it is both of them. -/
theorem pick_eq_first_of_place_eq (extreme : Extreme)
    (hnumbers : ∀ value ∈ first :: rest, Scalar.IsNumber value)
    (h : Double.place (Extreme.greatest.pick first rest) =
      Double.place (Extreme.least.pick first rest)) :
    extreme.pick first rest = first := by
  obtain ⟨hfirst, hrest⟩ := List.forall_mem_cons.mp hnumbers
  obtain ⟨hmem, habove⟩ := Extreme.greatest.attained_pick hfirst hrest
  obtain ⟨_, hbelow⟩ := Extreme.least.attained_pick hfirst hrest
  obtain ⟨place, hplace⟩ := Double.isNumber_iff.mp (hnumbers _ hmem)
  have hclosed : Scalar.le (Extreme.greatest.pick first rest) (Extreme.least.pick first rest) =
      true := Double.le_iff.mpr ⟨place, place, hplace, h ▸ hplace, le_rfl⟩
  have hall : ∀ value ∈ first :: rest, ∀ other ∈ first :: rest, Scalar.le value other = true :=
    fun value hvalue other hother =>
      LawfulScalar.le_trans (habove value hvalue)
        (LawfulScalar.le_trans hclosed (hbelow other hother))
  refine extreme.pick_eq_first fun value hvalue => Extreme.not_beats_of_bounds ?_
  have hmember := List.mem_cons_of_mem first hvalue
  cases extreme with
  | least => exact hall first List.mem_cons_self value hmember
  | greatest => exact hall value hmember first List.mem_cons_self

/-- The order of numbers does not matter for their discrepancy. -/
theorem discrepancy_of_perm_of_numbers (hperm : (first :: rest).Perm (first' :: rest'))
    (hnumbers : ∀ value ∈ first :: rest, Scalar.IsNumber value) :
    discrepancy (first :: rest) = discrepancy (first' :: rest') := by
  have hnumbers' : ∀ value ∈ first' :: rest', Scalar.IsNumber value :=
    fun value hvalue => hnumbers value (hperm.mem_iff.mpr hvalue)
  have hgreatest := place_pick_of_perm .greatest hperm hnumbers
  have hleast := place_pick_of_perm .least hperm hnumbers
  rw [discrepancy_cons, discrepancy_cons]
  by_cases h : Double.place (Extreme.greatest.pick first rest) =
      Double.place (Extreme.least.pick first rest)
  · -- The difference may then be one of zeros, of which the signs count.
    have hsame := fun extreme => pick_eq_first_of_place_eq extreme hnumbers h
    have hsame' := fun extreme => pick_eq_first_of_place_eq extreme hnumbers'
      (hgreatest.symm.trans (h.trans hleast))
    rw [hsame, hsame'] at hgreatest
    rw [hsame, hsame, hsame', hsame', Double.sub_eq, Double.sub_eq,
      Double.sub_self_eq_of_place?_eq _ hgreatest]
  · rw [Double.sub_eq, Double.sub_eq, Double.sub_eq_of_place?_ne _ hgreatest hleast h]

/-- A value that is no number makes the discrepancy of a list that it leads. -/
theorem discrepancy_of_not_isNumber (hfirst : ¬ Scalar.IsNumber first) :
    discrepancy (first :: rest) = first - first := by
  rw [discrepancy_cons, pick_of_not_isNumber .greatest hfirst, pick_of_not_isNumber .least hfirst]

theorem numbers_cons (hfirst : Scalar.IsNumber first) :
    numbers (first :: rest) = first :: numbers rest :=
  List.filter_cons_of_pos hfirst

/-- Behind a number, what is no number makes no difference. -/
theorem discrepancy_numbers {values : List Float} (hlead : LeadsWithNumber values) :
    discrepancy values = discrepancy (numbers values) := by
  cases values with
  | nil => rfl
  | cons first rest =>
      rw [numbers_cons (leadsWithNumber_cons.mp hlead), discrepancy_cons, discrepancy_cons,
        pick_numbers, pick_numbers]

/-- The discrepancy of values depends on their order only in so far as it decides whether
a number comes first. -/
theorem discrepancy_of_perm {values others : List Float} (hperm : values.Perm others)
    (hlead : LeadsWithNumber values ↔ LeadsWithNumber others) :
    discrepancy values = discrepancy others := by
  cases values with
  | nil => rw [hperm.symm.eq_nil]
  | cons first rest =>
    cases others with
    | nil => exact absurd hperm.eq_nil (List.cons_ne_nil first rest)
    | cons first' rest' =>
      rw [leadsWithNumber_cons, leadsWithNumber_cons] at hlead
      by_cases hfirst : Scalar.IsNumber first
      · have hfirst' := hlead.mp hfirst
        have hnumbers : ∀ value ∈ numbers (first :: rest), Scalar.IsNumber value :=
          fun value hvalue => (List.mem_filter.mp hvalue).2
        have hkept : (numbers (first :: rest)).Perm (numbers (first' :: rest')) := hperm.filter _
        rw [discrepancy_numbers (leadsWithNumber_cons.mpr hfirst),
          discrepancy_numbers (leadsWithNumber_cons.mpr hfirst')]
        rw [numbers_cons hfirst] at hnumbers hkept ⊢
        rw [numbers_cons hfirst'] at hkept ⊢
        exact discrepancy_of_perm_of_numbers hkept hnumbers
      · have hfirst' := fun h => hfirst (hlead.mpr h)
        rw [discrepancy_of_not_isNumber hfirst, discrepancy_of_not_isNumber hfirst',
          Double.eq_of_not_isNumber hfirst hfirst']

end Doubles

/-! ## Values of runs -/

theorem pick_map_real (extreme : Extreme) (first : Value) (rest : List Value) :
    extreme.pick first.real (rest.map Value.real) = (extreme.pick first rest).real := by
  induction rest generalizing first with
  | nil => rw [List.map_nil, extreme.pick_nil, extreme.pick_nil]
  | cons value rest ih =>
      have hbeats : extreme.beats value.real first.real = extreme.beats value first := by
        cases extreme with
        | least => rfl
        | greatest => rfl
      rw [List.map_cons, extreme.pick_cons, extreme.pick_cons, hbeats, ← apply_ite Value.real]
      exact ih _

theorem discrepancy_map_real (values : List Value) :
    discrepancy (values.map Value.real) = (discrepancy values).real := by
  cases values with
  | nil => rfl
  | cons first rest =>
      rw [List.map_cons, discrepancy_cons, pick_map_real, pick_map_real]
      rfl

/-- The discrepancy of values is that of their doubles. -/
theorem discrepancy_eq_ofReal (values : List Value) :
    discrepancy values = .ofReal (discrepancy (values.map Value.real)) := by
  cases values with
  | nil => rfl
  | cons first rest =>
      rw [discrepancy_map_real]
      rfl

theorem leadsWithNumber_map_real {values : List Value} :
    LeadsWithNumber (values.map Value.real) ↔ LeadsWithNumber values := by
  cases values with
  | nil => simp [LeadsWithNumber]
  | cons first rest =>
      rw [List.map_cons, leadsWithNumber_cons, leadsWithNumber_cons]
      exact Iff.rfl

theorem map_real_numbers (values : List Value) :
    (numbers values).map Value.real = numbers (values.map Value.real) := by
  rw [numbers, numbers, List.filter_map]
  rfl

section Values

variable {values others : List Value}

/-- What holds of lists of doubles holds of lists of values. -/
theorem discrepancy_values_of_perm (hperm : values.Perm others)
    (hlead : LeadsWithNumber values ↔ LeadsWithNumber others) :
    discrepancy values = discrepancy others := by
  rw [discrepancy_eq_ofReal, discrepancy_eq_ofReal, discrepancy_of_perm (hperm.map Value.real)
    (leadsWithNumber_map_real.trans (hlead.trans leadsWithNumber_map_real.symm))]

theorem discrepancy_values_numbers (hlead : LeadsWithNumber values) :
    discrepancy values = discrepancy (numbers values) := by
  rw [discrepancy_eq_ofReal, discrepancy_numbers (leadsWithNumber_map_real.mpr hlead),
    ← map_real_numbers, ← discrepancy_eq_ofReal]

theorem not_isNumber_discrepancy_values (hlead : ¬ LeadsWithNumber values) :
    ¬ Scalar.IsNumber (discrepancy values) := by
  cases values with
  | nil => exact absurd (fun first hfirst => nomatch hfirst) hlead
  | cons first rest =>
      rw [leadsWithNumber_cons] at hlead
      rw [discrepancy_eq_ofReal, List.map_cons, discrepancy_of_not_isNumber hlead]
      exact Double.not_isNumber_sub_self hlead

/-- Discrepancies that are no numbers are the same. -/
theorem discrepancy_eq_of_not_isNumber (h : ¬ Scalar.IsNumber (discrepancy values))
    (h' : ¬ Scalar.IsNumber (discrepancy others)) : discrepancy values = discrepancy others := by
  rw [discrepancy_eq_ofReal] at h h' ⊢
  rw [discrepancy_eq_ofReal others]
  exact congrArg Value.ofReal (Double.eq_of_not_isNumber h h')

theorem leadsWithNumber_of_forall (h : ∀ value ∈ values, Scalar.IsNumber value) :
    LeadsWithNumber values :=
  fun first hfirst => h first (List.mem_of_mem_head? hfirst)

theorem leadsWithNumber_iff_nil (h : ∀ value ∈ values, ¬ Scalar.IsNumber value) :
    LeadsWithNumber values ↔ values = [] := by
  cases values with
  | nil => simp [LeadsWithNumber]
  | cons first rest =>
      rw [leadsWithNumber_cons]
      exact iff_of_false (h first List.mem_cons_self) (List.cons_ne_nil first rest)

/-- Led by a number, values have the discrepancy of their numbers in any order. -/
theorem discrepancy_eq_numbers_of_perm (hperm : values.Perm others)
    (hlead : LeadsWithNumber others) : discrepancy others = discrepancy (numbers values) := by
  have hnumbers (list : List Value) : LeadsWithNumber (numbers list) :=
    leadsWithNumber_of_forall fun _ hvalue => (List.mem_filter.mp hvalue).2
  rw [discrepancy_values_numbers hlead]
  exact discrepancy_values_of_perm (hperm.symm.filter _)
    (iff_of_true (hnumbers others) (hnumbers values))

/-- A member can be brought to the front. -/
theorem exists_perm_cons {value : Value} (h : value ∈ values) :
    ∃ rest, values.Perm (value :: rest) := by
  obtain ⟨before, after, rfl⟩ := List.append_of_mem h
  exact ⟨before ++ after, List.perm_middle⟩

/-- Neither the discrepancy of some values nor for which tolerances they agree depends on
their order. -/
def OrderFree (values : List Value) : Prop :=
  ∀ others, values.Perm others →
    discrepancy values = discrepancy others ∧
      ∀ tolerance, isConsensus tolerance values = isConsensus tolerance others

theorem orderFree_of_discrepancy
    (h : ∀ others, values.Perm others → discrepancy values = discrepancy others) :
    OrderFree values :=
  fun others hperm => ⟨h others hperm, fun tolerance => by
    rw [isConsensus, isConsensus, h others hperm]⟩

/-- If a number and a value that is none are both among the values, and the numbers lie a
number apart, it matters which of the two comes first. -/
theorem not_orderFree {value missing : Value} (hvalue : value ∈ values)
    (hnumber : Scalar.IsNumber value) (hmissing : missing ∈ values)
    (hnot : ¬ Scalar.IsNumber missing) (h : Scalar.IsNumber (discrepancy (numbers values))) :
    ¬ OrderFree values := by
  intro hfree
  obtain ⟨rest, hperm⟩ := exists_perm_cons hvalue
  obtain ⟨rest', hperm'⟩ := exists_perm_cons hmissing
  have hled : discrepancy values = discrepancy (numbers values) :=
    (hfree _ hperm).1.trans
      (discrepancy_eq_numbers_of_perm hperm (leadsWithNumber_cons.mpr hnumber))
  have hnone : ¬ Scalar.IsNumber (discrepancy values) := by
    rw [(hfree _ hperm').1]
    exact not_isNumber_discrepancy_values (mt leadsWithNumber_cons.mp hnot)
  exact hnone (hled ▸ h)

/-- The order of values makes no difference if all of them are numbers or none is, or if
the discrepancy is none whatever comes first. -/
theorem orderFree_of (h : (∀ value ∈ values, Scalar.IsNumber value) ∨
    (∀ value ∈ values, ¬ Scalar.IsNumber value) ∨
      ¬ Scalar.IsNumber (discrepancy (numbers values))) : OrderFree values := by
  refine orderFree_of_discrepancy fun others hperm => ?_
  rcases h with hall | hnone | hapart
  · refine discrepancy_values_of_perm hperm (iff_of_true (leadsWithNumber_of_forall hall) ?_)
    exact leadsWithNumber_of_forall fun value hvalue => hall value (hperm.mem_iff.mpr hvalue)
  · refine discrepancy_values_of_perm hperm ?_
    rw [leadsWithNumber_iff_nil hnone, leadsWithNumber_iff_nil fun value hvalue =>
      hnone value (hperm.mem_iff.mpr hvalue)]
    exact ⟨fun hnil => (hnil ▸ hperm).symm.eq_nil, fun hnil => (hnil ▸ hperm).eq_nil⟩
  · have hboth (list : List Value) (hlist : values.Perm list) :
        ¬ Scalar.IsNumber (discrepancy list) := by
      by_cases hlead : LeadsWithNumber list
      · rwa [discrepancy_eq_numbers_of_perm hlist hlead]
      · exact not_isNumber_discrepancy_values hlead
    exact discrepancy_eq_of_not_isNumber (hboth values (.refl _)) (hboth others hperm)

end Values

/-- The order of some values makes no difference exactly if all of them are numbers, or
none is, or the numbers among them have a discrepancy that is none, as infinities have.

In any case only what comes first matters.  Two lists of the same values have the same
discrepancy if both begin with a number or neither does.  Behind a number, the discrepancy
is that of the numbers among the values; a list that begins with no number has a
discrepancy that is none, and it agrees for no tolerance. -/
theorem discrepancy_depends_on_numbers_and_lead (values : List Value) :
    (OrderFree values ↔
      (∀ value ∈ values, Scalar.IsNumber value) ∨
        (∀ value ∈ values, ¬ Scalar.IsNumber value) ∨
        ¬ Scalar.IsNumber (discrepancy (numbers values))) ∧
    (∀ others, values.Perm others → (LeadsWithNumber values ↔ LeadsWithNumber others) →
      discrepancy values = discrepancy others) ∧
    (LeadsWithNumber values → discrepancy values = discrepancy (numbers values)) ∧
    (¬ LeadsWithNumber values →
      ¬ Scalar.IsNumber (discrepancy values) ∧
        ∀ tolerance, isConsensus tolerance values = false) := by
  refine ⟨⟨fun hfree => ?_, orderFree_of⟩, fun _ => discrepancy_values_of_perm,
    discrepancy_values_numbers, fun hlead => ?_⟩
  · by_contra hmixed
    simp only [not_or, not_forall, not_not] at hmixed
    obtain ⟨⟨missing, hmissing, hnot⟩, ⟨value, hvalue, hnumber⟩, hapart⟩ := hmixed
    exact not_orderFree hvalue hnumber hmissing hnot hapart hfree
  · have hnone := not_isNumber_discrepancy_values hlead
    refine ⟨hnone, fun tolerance => Bool.eq_false_iff.mpr fun hle => hnone ?_⟩
    exact (Double.isNumber_of_le hle).1

/-- A value that is no number. -/
def missing : Value :=
  .ofReal (0.0 / 0.0)

/-- A number, two zeros and a value that is no number lie two apart in either order, as
they do without the last.  If that comes first, they agree for no tolerance. -/
theorem four_values_depend_on_lead :
    let values : List Value := [.ofReal 2.0, .ofReal 0.0, .ofReal (-0.0), missing]
    let others : List Value := [.ofReal 0.0, .ofReal 2.0, missing, .ofReal (-0.0)]
    let led : List Value := [missing, .ofReal 2.0, .ofReal 0.0, .ofReal (-0.0)]
    ¬ OrderFree values ∧
      Scalar.eq (discrepancy values) (.ofReal 2.0) = true ∧
      values.Perm others ∧ discrepancy values = discrepancy others ∧
      discrepancy values = discrepancy [.ofReal 2.0, .ofReal 0.0, .ofReal (-0.0)] ∧
      values.Perm led ∧ ∀ tolerance, isConsensus tolerance led = false := by
  intro values others led
  obtain ⟨hfree, hperms, hnumbers, -⟩ := discrepancy_depends_on_numbers_and_lead values
  obtain ⟨-, -, -, hnone⟩ := discrepancy_depends_on_numbers_and_lead led
  have htwo : Scalar.IsNumber (Value.ofReal 2.0) := show Scalar.eq _ _ = true by decide
  have hzero : Scalar.IsNumber (Value.ofReal 0.0) := show Scalar.eq _ _ = true by decide
  have hmissing : ¬ Scalar.IsNumber missing := fun h =>
    absurd (show Scalar.eq missing missing = true from h) (by decide)
  have hlead : LeadsWithNumber values := leadsWithNumber_cons.mpr htwo
  have hperm : values.Perm others :=
    (List.Perm.swap _ _ _).trans (((List.Perm.swap _ _ []).cons _).cons _)
  have hkept : numbers values = [.ofReal 2.0, .ofReal 0.0, .ofReal (-0.0)] := rfl
  have happart : Scalar.IsNumber (discrepancy (numbers values)) :=
    show Scalar.eq _ _ = true by decide
  refine ⟨?_, by decide, hperm,
    hperms others hperm (iff_of_true hlead (leadsWithNumber_cons.mpr hzero)),
    hkept ▸ hnumbers hlead,
    List.perm_append_singleton missing [.ofReal 2.0, .ofReal 0.0, .ofReal (-0.0)],
    (hnone (mt leadsWithNumber_cons.mp hmissing)).2⟩
  rw [hfree]
  rintro (hall | hnever | hnot)
  · exact hmissing (hall missing (List.mem_append_right [_, _, _] (List.mem_singleton_self _)))
  · exact hnever _ List.mem_cons_self htwo
  · exact hnot happart

/-- Two processes of which none ever changes its value. -/
def calmPair (values : List Value) : Experiment Value where
  name := "calm pair"
  processes := 2
  rounds := 1
  p := Scalar.ofNat 1
  phases := [{ kind := .eachRound, rule := .assign (.plain "x") .own }]
  leader := none
  parameters := []
  initial := .values values
  models := [{ kind := .standard }]
  channel := .guarantee .none
  topology := none
  faults := none

/-- Which of two processes has a value that is no number decides whether they agree. -/
theorem numbering_decides_consensus :
    let values : List Value := [.ofReal 0.0, missing]
    let others : List Value := [missing, .ofReal 0.0]
    values.Perm others ∧
      isConsensus (.ofReal 1e-6) values = true ∧ isConsensus (.ofReal 1e-6) others = false ∧
      (run (calmPair values) 1 (.ofReal 1e-6)).toOption.map
        (fun finished => (finished.summary (.ofReal 1e-6)).finalConsensus) = some true ∧
      (run (calmPair others) 1 (.ofReal 1e-6)).toOption.map
        (fun finished => (finished.summary (.ofReal 1e-6)).finalConsensus) = some false :=
  ⟨.swap _ _ _, by decide, by decide, by decide +kernel, by decide +kernel⟩

end LossyConsensus.Simulation
