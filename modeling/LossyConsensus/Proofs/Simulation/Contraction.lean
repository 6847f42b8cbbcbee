/-
# Rules that take averages

Averages, midpoints and choices of values stay between the least and the greatest
of the values they are made from.  With exact arithmetic, a protocol made of such
rules on a network that only drops messages therefore never widens the interval
that its values span: the discrepancy never rises, and an agreement lasts.  A phase
at the end sees the messages of the last round again, so it stays within the
interval that was spanned before that round.
-/

import LossyConsensus.Proofs.Scalar.Exact
import LossyConsensus.Proofs.Simulation.Blend
import Mathlib.Order.Interval.Set.Basic

namespace LossyConsensus.Simulation

open LossyConsensus.Network LossyConsensus.Protocol LossyConsensus.Random

/-! ## Spans -/

/-- The interval from the least of the values to the greatest. -/
def span : List ℚ → Set ℚ
  | [] => ∅
  | first :: rest => Set.Icc (Scalar.least first rest) (Scalar.greatest first rest)

variable {values others : List ℚ} {value : ℚ}

theorem mem_span_of_mem (h : value ∈ values) : value ∈ span values := by
  cases values with
  | nil => cases h
  | cons first rest =>
      exact ⟨Scalar.le_exact.mp ((attained_pick_exact .least first rest).2 value h),
        Scalar.le_exact.mp ((attained_pick_exact .greatest first rest).2 value h)⟩

/-- An interval that has all values has their span. -/
theorem span_subset_Icc {low high : ℚ} (h : ∀ value ∈ values, value ∈ Set.Icc low high) :
    span values ⊆ Set.Icc low high := by
  cases values with
  | nil => exact Set.empty_subset _
  | cons first rest =>
      exact Set.Icc_subset_Icc (h _ (Extreme.pick_mem .least first rest)).1
        (h _ (Extreme.pick_mem .greatest first rest)).2

theorem exists_span_eq_Icc (values : List ℚ) : ∃ low high, span values = Set.Icc low high := by
  cases values with
  | nil => exact ⟨1, 0, (Set.Icc_eq_empty (not_le.mpr one_pos)).symm⟩
  | cons first rest => exact ⟨_, _, rfl⟩

theorem zero_le_discrepancy (values : List ℚ) : 0 ≤ discrepancy values := by
  cases values with
  | nil => exact Scalar.zero_exact.ge
  | cons first rest =>
      have hfirst : first ∈ span (first :: rest) := mem_span_of_mem List.mem_cons_self
      exact sub_nonneg.mpr (hfirst.1.trans hfirst.2)

/-- Values that span no more lie no further apart. -/
theorem discrepancy_le_of_span_subset (h : span values ⊆ span others) :
    discrepancy values ≤ discrepancy others := by
  cases values with
  | nil => exact zero_le_discrepancy others
  | cons first rest =>
      have hleast := h (mem_span_of_mem (Extreme.pick_mem .least first rest))
      have hgreatest := h (mem_span_of_mem (Extreme.pick_mem .greatest first rest))
      cases others with
      | nil => exact hleast.elim
      | cons first' rest' => exact sub_le_sub hgreatest.2 hleast.1

/-- Equal values span nothing else. -/
theorem eq_of_mem_span {common : ℚ} (hequal : ∀ value ∈ values, value = common)
    (h : value ∈ span values) : value = common := by
  have hcommon : span values ⊆ Set.Icc common common :=
    span_subset_Icc fun value hvalue => ⟨(hequal value hvalue).ge, (hequal value hvalue).le⟩
  obtain ⟨hlow, hhigh⟩ := hcommon h
  exact le_antisymm hhigh hlow

/-! ## Blending within a span -/

/-- Averages and midpoints keep between two bounds. -/
theorem keeps_convex_Icc (low high : ℚ) : Blend.convex.Keeps (· ∈ Set.Icc low high) := by
  constructor
  · intro how hhow values hvalues result h
    simp only [Blend.convex, List.mem_cons, List.not_mem_nil, or_false] at hhow
    rcases hhow with rfl | rfl | rfl
    · cases values with
      | nil => cases h
      | cons first rest =>
          cases h
          exact Scalar.mean_exact_bounds (List.cons_ne_nil first rest) hvalues
    · exact Extreme.inside_of_apply .least hvalues h
    · exact Extreme.inside_of_apply .greatest hvalues h
  · intro how hhow view hsees
    simp only [Blend.convex, List.mem_cons, List.not_mem_nil, or_false] at hhow
    have hleast := hsees.pick .least
    have hgreatest := hsees.pick .greatest
    rcases hhow with rfl | rfl | rfl | rfl
    · exact Scalar.mean_exact_bounds (List.cons_ne_nil _ _)
        (List.forall_mem_cons.mpr ⟨hsees.own, hsees.received⟩)
    · exact hleast
    · exact hgreatest
    · exact Scalar.midpoint_exact_bounds hleast hgreatest

theorem keeps_convex_span (values : List ℚ) : Blend.convex.Keeps (· ∈ span values) := by
  obtain ⟨low, high, hspan⟩ := exists_span_eq_Icc values
  rw [hspan]
  exact keeps_convex_Icc low high

variable {experiment : Experiment ℚ} {seed : Int} {tolerance : ℚ} {finished : Run ℚ}

/-- Rational numbers stay as they arise. -/
theorem kept_exact (inside : ℚ → Prop) : KeptAsItArises inside :=
  fun _ _ _ h => h

/-- A round leaves no value outside the span of the values before it. -/
theorem Experiment.Blends.span_after_subset (hblends : experiment.Blends .convex)
    {network : Network ℚ} {round : Nat} {generator next : Generator} {step : Step ℚ}
    (h : playRound experiment network tolerance round values generator = .ok (step, next)) :
    span step.after ⊆ span values := by
  have hstays := hblends.round_stays (keeps_convex_span values) (kept_exact _) h
    fun _ hvalue => mem_span_of_mem hvalue
  obtain ⟨low, high, hspan⟩ := exists_span_eq_Icc values
  rw [hspan] at hstays ⊢
  exact span_subset_Icc hstays.after

/-! ## Runs -/

/-- The spans of the states of a run lie in each other. -/
theorem Experiment.Blends.span_states_subset (hblends : experiment.Blends .convex)
    (hrun : run experiment seed tolerance = .ok finished) {k j : Nat} (hkj : k ≤ j)
    {earlier later : List ℚ} (hearlier : finished.states[k]? = some earlier)
    (hlater : finished.states[j]? = some later) : span later ⊆ span earlier := by
  induction j, hkj using Nat.le_induction generalizing later with
  | base =>
      obtain rfl := Option.some.inj (hearlier.symm.trans hlater)
      exact Set.Subset.rfl
  | succ j hkj ih =>
      have hlt : j < finished.states.length :=
        Nat.lt_of_succ_lt (List.getElem?_eq_some_iff.mp hlater).choose
      have hbetween := List.getElem?_eq_getElem hlt
      obtain ⟨step, hstep, hbefore, rfl⟩ := exists_round_of_states hrun hbetween hlater
      obtain ⟨_, _, _, _, _, _, _, hround⟩ := exists_playRound_of_run hrun hstep
      rw [← hbefore] at hbetween
      exact (hblends.span_after_subset hround).trans (ih hbetween)

/-- The discrepancies of a run up to its last round are those of its states. -/
theorem take_discrepancies (hrun : run experiment seed tolerance = .ok finished) :
    (finished.summary tolerance).discrepancies.take (experiment.rounds + 1) =
      finished.states.map discrepancy := by
  have hlength := (length_states_of_run hrun).1
  have hstates : finished.states.map discrepancy =
      discrepancy finished.start :: finished.rounds.map fun step => discrepancy step.after := by
    rw [Run.states, List.map_cons, List.map_map]
    rfl
  rw [hstates, Run.summary, List.take_succ_cons, ← List.map_take]
  rcases steps_of_run hrun with ⟨_, hsteps⟩ | ⟨_, last, hsteps, _⟩
  · rw [hsteps, ← hlength, List.take_length]
  · rw [hsteps, ← hlength, List.take_left]

/-- Rules that take averages, midpoints or extremes never widen the range of the
values.  The interval spanned after a round lies in the one spanned before it, so
that no discrepancy exceeds an earlier one, and once all values are equal they stay
what they are.  At the very end, after a phase there as well, all values lie in the
interval that was spanned before the last round. -/
theorem convex_rules_never_widen (hblends : experiment.Blends .convex)
    (hrun : run experiment seed tolerance = .ok finished) :
    finished.states.length = experiment.rounds + 1 ∧
    (∀ k earlier later, finished.states[k]? = some earlier →
      finished.states[k + 1]? = some later → span later ⊆ span earlier) ∧
    ((finished.summary tolerance).discrepancies.take (experiment.rounds + 1)).Pairwise (· ≥ ·) ∧
    (∀ (k j : Nat) common earlier later, k ≤ j → finished.states[k]? = some earlier →
      (∀ value ∈ earlier, value = common) → finished.states[j]? = some later →
        ∀ value ∈ later, value = common) ∧
    ∀ before, 1 ≤ experiment.rounds → finished.states[experiment.rounds - 1]? = some before →
      ∀ value ∈ finished.finalValues, value ∈ span before := by
  have hnested := fun {k j : Nat} => hblends.span_states_subset (k := k) (j := j) hrun
  refine ⟨(length_states_of_run hrun).2, fun k _ _ => hnested (Nat.le_succ k), ?_, ?_, ?_⟩
  · rw [take_discrepancies hrun, List.pairwise_map, List.pairwise_iff_getElem]
    intro k j hk hj hlt
    exact discrepancy_le_of_span_subset
      (hnested (Nat.le_of_lt hlt) (List.getElem?_eq_getElem hk) (List.getElem?_eq_getElem hj))
  · intro k j common earlier later hkj hearlier hequal hlater value hvalue
    exact eq_of_mem_span hequal (hnested hkj hearlier hlater (mem_span_of_mem hvalue))
  · intro before hpos hbefore value hvalue
    obtain ⟨last, hlast, rfl⟩ := exists_last_round hrun hpos hbefore
    exact hblends.final_stays (keeps_convex_span last.before) (kept_exact _) hrun hlast
      (fun _ h => mem_span_of_mem h) value hvalue

/-- Three processes, cut off from each other in the second round, take the average
of what they know, or else the midpoint of the two values they differ in; at the end
the greatest value that they received replaces theirs. -/
def averagers : Experiment ℚ where
  name := "averagers"
  processes := 3
  rounds := 2
  p := 3 / 4
  phases := [
    { kind := .eachRound, rule := .choose (.receivedDiff "x") (.combine .average)
        (.assign (.plain "x") (.aggregate .avg true)) },
    { kind := .eachRound, rule := .onlyIf .receivedMajority (.combine .midpoint) },
    { kind := .atEnd, rule := .ifDifferent (.aggregate .max false) .own }]
  leader := none
  parameters := []
  initial := .values [0, 1, 5]
  models := [{ kind := .standard }]
  channel := .guarantee .none
  topology := some .complete
  faults := some (.partition 2 1 [[1, 2], [3]])

/-- The run completes, and the range of its values never widens. -/
theorem averagers_never_widen : ∃ finished : Run ℚ,
    averagers.Blends .convex ∧ run averagers 3 0 = .ok finished ∧
    finished.states.length = 3 ∧
    (∀ k earlier later, finished.states[k]? = some earlier →
      finished.states[k + 1]? = some later → span later ⊆ span earlier) ∧
    ((finished.summary 0).discrepancies.take 3).Pairwise (· ≥ ·) ∧
    (∀ (k j : Nat) common earlier later, k ≤ j → finished.states[k]? = some earlier →
      (∀ value ∈ earlier, value = common) → finished.states[j]? = some later →
        ∀ value ∈ later, value = common) ∧
    ∀ before, 1 ≤ 2 → finished.states[1]? = some before →
      ∀ value ∈ finished.finalValues, value ∈ span before := by
  have hplays : (run averagers 3 0).isOk = true := by decide +kernel
  obtain ⟨finished, hrun⟩ := exists_eq_ok hplays
  have hblends : averagers.Blends .convex := by
    constructor
    · intro phase hphase
      simp only [averagers, List.mem_cons, List.not_mem_nil, or_false] at hphase
      rcases hphase with rfl | rfl | rfl <;> simp [Rule.BlendsBy, Expr.BlendsBy, Blend.convex]
    · rintro fault ⟨⟩
      exact .partition 2 1 [[1, 2], [3]]
  exact ⟨finished, hblends, hrun, convex_rules_never_widen hblends hrun⟩

end LossyConsensus.Simulation
