/-
# Ranks and what lies between them

Over exact scalars a rank is what it is meant to be.  With a confidence `c`, no more than
half of `1 - c` of the convergence times lie outside the bounds on either side.  What a
bound or a percentile covers then follows from the order of the sorted times.
-/

import LossyConsensus.Analysis.Tail
import LossyConsensus.Proofs.Scalar.Exact
import Mathlib.Data.List.Sort
import Mathlib.Data.Rat.Floor
import Mathlib.Tactic.Linarith

namespace LossyConsensus.Analysis

open LossyConsensus.Statistics

/-! ## Sorted lists -/

theorem ascends_exact (a b : ℚ) : ascends a b = decide (a ≤ b) := by
  have hnumber : Scalar.eq b b = true := Scalar.isNumber_exact b
  rw [ascends, hnumber, Bool.not_true, Bool.or_false]
  rfl

theorem sorted_perm (values : List ℚ) : (sorted values).Perm values :=
  values.mergeSort_perm ascends

@[simp]
theorem length_sorted (values : List ℚ) : (sorted values).length = values.length :=
  (sorted_perm values).length_eq

theorem pairwise_sorted (values : List ℚ) : (sorted values).Pairwise (· ≤ ·) := by
  refine (List.pairwise_mergeSort ?_ ?_ values).imp fun {a b} h => ?_
  · intro a b c hab hbc
    rw [ascends_exact, decide_eq_true_iff] at *
    exact hab.trans hbc
  · intro a b
    rw [ascends_exact, ascends_exact, Bool.or_eq_true, decide_eq_true_iff, decide_eq_true_iff]
    exact le_total a b
  · rwa [ascends_exact, decide_eq_true_iff] at h

/-- Sorting forgets the order in which values are given. -/
theorem sorted_eq_of_perm {values others : List ℚ} (hperm : values.Perm others) :
    sorted values = sorted others :=
  List.Perm.eq_of_pairwise (fun _ _ _ _ => le_antisymm) (pairwise_sorted values)
    (pairwise_sorted others) ((sorted_perm values).trans (hperm.trans (sorted_perm others).symm))

section Ascending

variable {values : List ℚ} {low high : Nat}

theorem getElem_le_of_pairwise (hvalues : values.Pairwise (· ≤ ·)) (hle : low ≤ high)
    (hhigh : high < values.length) : values[low] ≤ values[high] :=
  (List.sortedLE_iff_pairwise.mpr hvalues).getElem_le_getElem_of_le hle

/-- Of ascending values, those from one place up to another one lie between the two that
stand there. -/
theorem le_countP_between_getElem (hvalues : values.Pairwise (· ≤ ·)) (hle : low ≤ high)
    (hhigh : high < values.length) :
    high + 1 - low ≤
      values.countP fun value => decide (values[low] ≤ value ∧ value ≤ values[high]) := by
  let part := (values.take (high + 1)).drop low
  have hlength : part.length = high + 1 - low := by
    rw [List.length_drop, List.length_take_of_le hhigh]
  have hpart : ∀ value ∈ part, values[low] ≤ value ∧ value ≤ values[high] := by
    intro value hvalue
    obtain ⟨place, hplace, rfl⟩ := List.getElem_of_mem hvalue
    rw [List.getElem_drop, List.getElem_take]
    exact ⟨getElem_le_of_pairwise hvalues (by omega) (by omega),
      getElem_le_of_pairwise hvalues (by omega) (by omega)⟩
  have hsub : part.Sublist values := (List.drop_sublist _ _).trans (List.take_sublist _ _)
  rw [← hlength, ← List.countP_eq_length.mpr fun value hvalue => decide_eq_true (hpart value hvalue)]
  exact hsub.countP_le

end Ascending

/-! ## Whole numbers -/

theorem wholePart_exact {value : ℚ} (h : 0 ≤ value) : wholePart value = ⌊value⌋₊ := by
  rw [Int.natCast_floor_eq_floor h, Rat.floor_def']
  exact Int.tdiv_eq_ediv_of_nonneg (Rat.num_nonneg.mpr h)

theorem ceiling_exact {value : ℚ} (h : 0 ≤ value) : ceiling value = ⌈value⌉₊ := by
  rw [ceiling, wholePart_exact h, Int.toNat_natCast, Scalar.ofNat_exact]
  by_cases hlt : (⌊value⌋₊ : ℚ) < value
  · rw [if_pos (Scalar.lt_exact.mpr hlt)]
    have habove : ⌈value⌉₊ = ⌊value⌋₊ + 1 :=
      le_antisymm (Nat.ceil_le_floor_add_one value) (Nat.lt_ceil.mpr hlt)
    rw [habove, Nat.cast_succ]
  · rw [if_neg (mt Scalar.lt_exact.mp hlt)]
    have hwhole : value ≤ ⌊value⌋₊ := not_lt.mp hlt
    rw [le_antisymm (Nat.ceil_le.mpr hwhole) (Nat.floor_le_ceil value)]

/-! ## Ranks -/

section Ranks

variable {count : Nat} {confidence confidence' part : ℚ}

/-- How many of some values may lie outside their bounds on either side. -/
def spared (count : Nat) (confidence : ℚ) : Nat :=
  ⌊count * (1 - confidence) / 2⌋₊

theorem half_left_nonneg (count : Nat) (hbelow : confidence < 1) :
    (0 : ℚ) ≤ count * (1 - confidence) / 2 :=
  div_nonneg (mul_nonneg count.cast_nonneg (sub_nonneg.mpr hbelow.le)) zero_le_two

/-- On both sides together, no more values are spared than the confidence leaves. -/
theorem two_mul_spared_le (count : Nat) (hbelow : confidence < 1) :
    2 * (spared count confidence : ℚ) ≤ count * (1 - confidence) := by
  have hfloor : (spared count confidence : ℚ) ≤ count * (1 - confidence) / 2 :=
    Nat.floor_le (half_left_nonneg count hbelow)
  linarith

theorem two_mul_spared_lt (hcount : 0 < count) (hpos : 0 < confidence) (hbelow : confidence < 1) :
    2 * spared count confidence < count := by
  have hleft : (count : ℚ) * (1 - confidence) < count :=
    mul_lt_of_lt_one_right (Nat.cast_pos.mpr hcount) (sub_lt_self 1 hpos)
  have htwo := (two_mul_spared_le count hbelow).trans_lt hleft
  exact_mod_cast htwo

/-- The more is promised, the less is spared. -/
theorem spared_anti (count : Nat) (hle : confidence ≤ confidence') :
    spared count confidence' ≤ spared count confidence := by
  refine Nat.floor_mono ?_
  gcongr

theorem lowerRank_exact (hbelow : confidence < 1) :
    lowerRank count confidence = (max 1 (spared count confidence) : Nat) := by
  rw [lowerRank, Scalar.ofNat_exact, Scalar.ofNat_exact, Scalar.ofNat_exact, Nat.cast_one,
    Nat.cast_ofNat, wholePart_exact (half_left_nonneg count hbelow), ← spared, Nat.cast_max,
    Nat.cast_one]

theorem upperRank_exact (hpos : 0 < confidence) (hbelow : confidence < 1) :
    upperRank count confidence = (count - spared count confidence : Nat) := by
  have hsplit : (count : ℚ) * (1 - (1 - confidence) / 2) =
      count + -(count * (1 - confidence) / 2) := by ring
  have hnonneg : (0 : ℚ) ≤ count * (1 - (1 - confidence) / 2) :=
    mul_nonneg count.cast_nonneg (by linarith)
  have hceil : (⌈(count : ℚ) * (1 - (1 - confidence) / 2)⌉₊ : Int) =
      count - spared count confidence := by
    rw [Int.natCast_ceil_eq_ceil hnonneg, hsplit, Int.ceil_natCast_add, Int.ceil_neg,
      ← Int.natCast_floor_eq_floor (half_left_nonneg count hbelow), ← spared, sub_eq_add_neg]
  rw [upperRank, Scalar.ofNat_exact, Scalar.ofNat_exact, Scalar.ofNat_exact, Nat.cast_one,
    Nat.cast_ofNat, ceiling_exact hnonneg, hceil]
  omega

/-- From the lower to the upper rank, the ranks are as many as the confidence promises. -/
theorem mul_le_between_ranks (hcount : 0 < count) (hpos : 0 < confidence)
    (hbelow : confidence < 1) :
    confidence * count ≤
      (count - spared count confidence + 1 - max 1 (spared count confidence) : Nat) := by
  have hspared := two_mul_spared_lt hcount hpos hbelow
  -- Ranks begin at 1, so the lower one is not `spared` if that is zero.
  rcases Nat.eq_zero_or_pos (spared count confidence) with hzero | hsome
  · rw [hzero]
    exact mul_le_of_le_one_left count.cast_nonneg hbelow.le
  · have hranks : count ≤
        count - spared count confidence + 1 - max 1 (spared count confidence) +
          2 * spared count confidence := by omega
    have hranks' : (count : ℚ) ≤
        (count - spared count confidence + 1 - max 1 (spared count confidence) : Nat) +
          2 * spared count confidence := by exact_mod_cast hranks
    linarith [two_mul_spared_le count hbelow]

theorem percentileRank_exact (hpart : 0 ≤ part) (hwhole : part ≤ 1) :
    percentileRank count part = (⌈part * count⌉₊ : Nat) := by
  have hle : ⌈part * count⌉₊ ≤ count :=
    Nat.ceil_le.mpr (mul_le_of_le_one_left count.cast_nonneg hwhole)
  rw [percentileRank, Scalar.ofNat_exact, ceiling_exact (mul_nonneg hpart count.cast_nonneg)]
  omega

end Ranks

/-! ## Values of ranks -/

section Values

variable {values : List ℚ} {low high : Nat}

theorem atRank_nil {R : Type} [Scalar R] (rank : Int) : atRank ([] : List R) rank = noNumber := by
  simp [atRank, itemAt?]

theorem atRank_natCast {rank : Nat} (hpos : 0 < rank) (hle : rank ≤ values.length) :
    atRank values rank = values[rank - 1] := by
  have hindex : (rank : Int) - 1 = (rank - 1 : Nat) := by omega
  rw [atRank, hindex, itemAt?, if_pos (Int.natCast_nonneg _), Int.toNat_natCast,
    List.getElem?_eq_getElem (by omega), Option.getD_some]

theorem atRank_sorted_mem (hpos : 0 < low) (hle : low ≤ values.length) :
    atRank (sorted values) low ∈ values := by
  rw [atRank_natCast hpos (by rwa [length_sorted])]
  exact (sorted_perm values).mem_iff.mp (List.getElem_mem _)

theorem atRank_sorted_le (hpos : 0 < low) (hle : low ≤ high) (hhigh : high ≤ values.length) :
    atRank (sorted values) low ≤ atRank (sorted values) high := by
  have hlength := length_sorted values
  rw [atRank_natCast hpos (by omega), atRank_natCast (by omega) (by omega)]
  exact getElem_le_of_pairwise (pairwise_sorted values) (by omega) _

/-- Between the values of two ranks lie at least as many values as there are ranks. -/
theorem le_countP_between_ranks (hpos : 0 < low) (hle : low ≤ high)
    (hhigh : high ≤ values.length) :
    high + 1 - low ≤ values.countP fun value =>
      decide (atRank (sorted values) low ≤ value ∧ value ≤ atRank (sorted values) high) := by
  have hlength := length_sorted values
  have hplaces := @le_countP_between_getElem _ (low - 1) (high - 1) (pairwise_sorted values)
    (by omega) (by omega)
  rw [atRank_natCast hpos (by omega), atRank_natCast (by omega) (by omega),
    ← (sorted_perm values).countP_eq]
  omega

end Values

/-! ## Bounds and percentiles -/

/-- The times of the runs that converged. -/
def converged (rounds : List ℚ) : List ℚ :=
  rounds.filter fun time => decide (0 ≤ time)

/-- Two of some times, in order, between which the given part of them lies. -/
structure Covers (rounds : List ℚ) (part lower upper : ℚ) : Prop where
  lower_mem : lower ∈ rounds
  upper_mem : upper ∈ rounds
  ordered : lower ≤ upper
  part_le : part * rounds.length ≤
    rounds.countP fun time => decide (lower ≤ time ∧ time ≤ upper)

section Bounds

variable {rounds : List ℚ} {confidence part : ℚ}

theorem tailBounds_exact (rounds : List ℚ) (hpos : 0 < confidence) (hbelow : confidence < 1) :
    let values := sorted rounds
    let outside := spared rounds.length confidence
    tailBounds rounds confidence = .ok (pairwiseMean values,
      atRank values (max 1 outside : Nat), atRank values (rounds.length - outside : Nat)) := by
  have hinside : (Scalar.lt Scalar.zero confidence &&
      Scalar.lt confidence (Scalar.ofNat 1)) = true := by
    rw [Bool.and_eq_true, Scalar.lt_exact, Scalar.lt_exact, Scalar.zero_exact,
      Scalar.ofNat_exact, Nat.cast_one]
    exact ⟨hpos, hbelow⟩
  simp only [tailBounds, hinside, Bool.not_true, if_neg Bool.false_ne_true, length_sorted,
    lowerRank_exact hbelow, upperRank_exact hpos hbelow]

/-- What the bounds leave out is no more than the confidence allows. -/
theorem covers_between_ranks (hne : rounds ≠ []) (hpos : 0 < confidence)
    (hbelow : confidence < 1) :
    let outside := spared rounds.length confidence
    Covers rounds confidence (atRank (sorted rounds) (max 1 outside : Nat))
      (atRank (sorted rounds) (rounds.length - outside : Nat)) := by
  have hcount : 0 < rounds.length := List.length_pos_iff.mpr hne
  have hspared := two_mul_spared_lt hcount hpos hbelow
  intro outside
  have hranks : max 1 outside ≤ rounds.length - outside := by omega
  exact {
    lower_mem := atRank_sorted_mem (by omega) (by omega)
    upper_mem := atRank_sorted_mem (by omega) (by omega)
    ordered := atRank_sorted_le (by omega) hranks (by omega)
    part_le := (mul_le_between_ranks hcount hpos hbelow).trans
      (Nat.cast_le.mpr (le_countP_between_ranks (by omega) hranks (by omega))) }

theorem expectedRounds_exact (rounds : List ℚ) :
    let values := sorted (converged rounds)
    let count := (converged rounds).length
    expectedRounds rounds = (pairwiseMean values, atRank values (count / 2 + 1 : Nat),
      atRank values (⌈(9 / 10 : ℚ) * count⌉₊ : Nat),
      atRank values (⌈(99 / 100 : ℚ) * count⌉₊ : Nat)) := by
  have hfilter : rounds.filter (fun time => Scalar.le Scalar.zero time) = converged rounds := by
    rw [Scalar.zero_exact]
    rfl
  have hmedian : ((converged rounds).length : Int) / 2 + 1 =
      ((converged rounds).length / 2 + 1 : Nat) := by omega
  have hpercentiles : (Scalar.ofNat 9 / Scalar.ofNat 10 : ℚ) = 9 / 10 ∧
      (Scalar.ofNat 99 / Scalar.ofNat 100 : ℚ) = 99 / 100 := ⟨rfl, rfl⟩
  simp only [expectedRounds, hfilter, length_sorted, hmedian, hpercentiles.1, hpercentiles.2]
  rw [percentileRank_exact (by norm_num) (by norm_num),
    percentileRank_exact (by norm_num) (by norm_num)]

/-- Up to a percentile lies the part that it names. -/
theorem mul_le_countP_percentile (hne : rounds ≠ []) (hpart : 0 < part) (hwhole : part ≤ 1) :
    let value := atRank (sorted rounds) (⌈part * rounds.length⌉₊ : Nat)
    value ∈ rounds ∧ part * rounds.length ≤ rounds.countP fun time => decide (time ≤ value) := by
  have hcount : 0 < rounds.length := List.length_pos_iff.mpr hne
  have hrank : 0 < ⌈part * rounds.length⌉₊ :=
    Nat.ceil_pos.mpr (mul_pos hpart (Nat.cast_pos.mpr hcount))
  have hlast : ⌈part * rounds.length⌉₊ ≤ rounds.length :=
    Nat.ceil_le.mpr (mul_le_of_le_one_left (Nat.cast_nonneg _) hwhole)
  intro value
  refine ⟨atRank_sorted_mem hrank hlast, (Nat.le_ceil _).trans (Nat.cast_le.mpr ?_)⟩
  refine (le_countP_between_ranks Nat.one_pos hrank hlast).trans (List.countP_mono_left ?_)
  intro time _ hbetween
  exact decide_eq_true (of_decide_eq_true hbetween).2

/-- The median stands at or before the 90th percentile. -/
theorem half_lt_ceil {count : Nat} (hcount : 0 < count) :
    count / 2 + 1 ≤ ⌈(9 / 10 : ℚ) * count⌉₊ := by
  have hhalf : 2 * (count / 2) ≤ count := Nat.mul_div_le count 2
  have hhalf' : 2 * ((count / 2 : Nat) : ℚ) ≤ count := by exact_mod_cast hhalf
  have hpos : (0 : ℚ) < count := Nat.cast_pos.mpr hcount
  exact Nat.lt_ceil.mpr (by linarith)

theorem noNumber_float : ¬ Scalar.IsNumber (noNumber : Float) := by
  rw [Scalar.IsNumber]
  decide

/-- If no run converged, nothing is known about the times. -/
theorem expectedRounds_none {rounds : List Float}
    (hnone : ∀ time ∈ rounds, Scalar.le Scalar.zero time = false) :
    expectedRounds rounds = (noNumber, noNumber, noNumber, noNumber) := by
  have hfilter : rounds.filter (fun time => Scalar.le Scalar.zero time) = [] :=
    List.filter_eq_nil_iff.mpr fun time htime => Bool.eq_false_iff.mp (hnone time htime)
  have hmean : pairwiseMean ([] : List Float) = noNumber := by
    rw [pairwiseMean, pairwiseSum]
    rfl
  have hsorted : sorted ([] : List Float) = [] := List.mergeSort_nil
  simp only [expectedRounds, hfilter, hsorted, hmean, atRank_nil]

end Bounds

/-- Bounds and percentiles of convergence times are times themselves, they stand in order
and they cover the part that they promise, whatever order the times are given in.  More
confidence never narrows the bounds.  Runs that did not converge do not count, and
without any other there are no percentiles. -/
theorem order_statistics_cover_parts :
    (∀ (rounds : List ℚ) (confidence : ℚ), rounds ≠ [] → 0 < confidence → confidence < 1 →
      ∃ mean lower upper, tailBounds rounds confidence = .ok (mean, lower, upper) ∧
        Covers rounds confidence lower upper ∧
        (∀ others, rounds.Perm others →
          tailBounds others confidence = .ok (mean, lower, upper)) ∧
        ∀ confidence', confidence ≤ confidence' → confidence' < 1 →
          ∃ lower' upper', tailBounds rounds confidence' = .ok (mean, lower', upper') ∧
            lower' ≤ lower ∧ upper ≤ upper') ∧
    (∀ rounds others : List ℚ, (converged rounds).Perm (converged others) →
      expectedRounds rounds = expectedRounds others) ∧
    (∀ rounds : List ℚ, converged rounds ≠ [] →
      ∃ mean median p90 p99, expectedRounds rounds = (mean, median, p90, p99) ∧
        median ∈ converged rounds ∧ p90 ∈ converged rounds ∧ p99 ∈ converged rounds ∧
        median ≤ p90 ∧ p90 ≤ p99 ∧
        9 / 10 * ((converged rounds).length : ℚ) ≤
          (converged rounds).countP (fun time => decide (time ≤ p90)) ∧
        99 / 100 * ((converged rounds).length : ℚ) ≤
          (converged rounds).countP fun time => decide (time ≤ p99)) ∧
    ¬ Scalar.IsNumber (noNumber : Float) ∧
    ∀ rounds : List Float, (∀ time ∈ rounds, Scalar.le Scalar.zero time = false) →
      expectedRounds rounds = (noNumber, noNumber, noNumber, noNumber) := by
  refine ⟨?_, ?_, ?_, noNumber_float, fun _ => expectedRounds_none⟩
  · intro rounds confidence hne hpos hbelow
    refine ⟨_, _, _, tailBounds_exact rounds hpos hbelow, covers_between_ranks hne hpos hbelow,
      ?_, ?_⟩
    · intro others hperm
      rw [tailBounds_exact others hpos hbelow, sorted_eq_of_perm hperm, hperm.length_eq]
    · intro confidence' hle hbelow'
      have hanti := spared_anti rounds.length hle
      have hspared := two_mul_spared_lt (List.length_pos_iff.mpr hne) hpos hbelow
      exact ⟨_, _, tailBounds_exact rounds (hpos.trans_le hle) hbelow',
        atRank_sorted_le (by omega) (by omega) (by omega),
        atRank_sorted_le (by omega) (by omega) (by omega)⟩
  · intro rounds others hperm
    rw [expectedRounds_exact, expectedRounds_exact, sorted_eq_of_perm hperm, hperm.length_eq]
  · intro rounds hne
    have hcount : 0 < (converged rounds).length := List.length_pos_iff.mpr hne
    have hmedian := half_lt_ceil hcount
    have hpercentiles : ⌈(9 / 10 : ℚ) * (converged rounds).length⌉₊ ≤
        ⌈(99 / 100 : ℚ) * (converged rounds).length⌉₊ :=
      Nat.ceil_mono (mul_le_mul_of_nonneg_right (by norm_num) (Nat.cast_nonneg _))
    have hlast : ⌈(99 / 100 : ℚ) * (converged rounds).length⌉₊ ≤ (converged rounds).length :=
      Nat.ceil_le.mpr (mul_le_of_le_one_left (Nat.cast_nonneg _) (by norm_num))
    obtain ⟨hmem90, hpart90⟩ :=
      mul_le_countP_percentile hne (show (0 : ℚ) < 9 / 10 by norm_num) (by norm_num)
    obtain ⟨hmem99, hpart99⟩ :=
      mul_le_countP_percentile hne (show (0 : ℚ) < 99 / 100 by norm_num) (by norm_num)
    exact ⟨_, _, _, _, expectedRounds_exact rounds,
      atRank_sorted_mem (Nat.succ_pos _) (by omega), hmem90, hmem99,
      atRank_sorted_le (Nat.succ_pos _) hmedian (by omega),
      atRank_sorted_le (by omega) hpercentiles hlast, hpart90, hpart99⟩

/-- Four times have bounds in either order, and wider ones for more confidence.  A run
that did not converge changes nothing beside three that did, and alone it has no median. -/
theorem times_of_four_runs_covered :
    (∃ mean lower upper, tailBounds [3, 1, 2, 4] (1 / 2 : ℚ) = .ok (mean, lower, upper) ∧
      Covers [3, 1, 2, 4] (1 / 2) lower upper ∧
      tailBounds [1, 3, 2, 4] (1 / 2 : ℚ) = .ok (mean, lower, upper) ∧
      ∃ lower' upper', tailBounds [3, 1, 2, 4] (9 / 10 : ℚ) = .ok (mean, lower', upper') ∧
        lower' ≤ lower ∧ upper ≤ upper') ∧
    expectedRounds [3, -1, 1, 2] = expectedRounds ([1, 3, 2] : List ℚ) ∧
    (∃ mean median p90 p99, expectedRounds ([3, -1, 1, 2] : List ℚ) = (mean, median, p90, p99) ∧
      median ≤ p90 ∧ p90 ≤ p99) ∧
    expectedRounds [(-1.0 : Float)] = (noNumber, noNumber, noNumber, noNumber) := by
  obtain ⟨hbounds, hignored, hordered, -, hnone⟩ := order_statistics_cover_parts
  obtain ⟨mean, lower, upper, hfour, hcovers, horder, hmore⟩ :=
    hbounds [3, 1, 2, 4] (1 / 2) (List.cons_ne_nil _ _) (by norm_num) (by norm_num)
  have hleft : converged [3, -1, 1, 2] = [3, 1, 2] := by decide
  have hleft' : converged [1, 3, 2] = [1, 3, 2] := by decide
  obtain ⟨mean', median, p90, p99, hthree, -, -, -, hmedian, hp99, -, -⟩ :=
    hordered [3, -1, 1, 2] (hleft ▸ List.cons_ne_nil _ _)
  refine ⟨⟨mean, lower, upper, hfour, hcovers, horder _ (.swap _ _ _), ?_⟩, ?_,
    ⟨mean', median, p90, p99, hthree, hmedian, hp99⟩, hnone _ (by decide)⟩
  · exact hmore (9 / 10) (by norm_num) (by norm_num)
  · refine hignored _ _ ?_
    rw [hleft, hleft']
    exact .swap _ _ _

/-- A run that did not converge has a median that is no time of a run. -/
theorem unconverged_median_not_mem :
    (expectedRounds [(-1.0 : Float)]).2.1 ∉ [(-1.0 : Float)] ∧
      (expectedRounds [(-1.0 : Float)]).2.2.1 ∉ [(-1.0 : Float)] ∧
      (expectedRounds [(-1.0 : Float)]).2.2.2 ∉ [(-1.0 : Float)] := by
  have hnumber : Scalar.eq (-1.0 : Float) (-1.0) = true := by decide
  have hnot : (noNumber : Float) ∉ [(-1.0 : Float)] := fun hmem =>
    noNumber_float (List.mem_singleton.mp hmem ▸ hnumber)
  rw [expectedRounds_none (by decide)]
  exact ⟨hnot, hnot, hnot⟩

end LossyConsensus.Analysis
