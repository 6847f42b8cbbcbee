/-
# Scans that end

Whatever a scan tries, once it has ended it has found the first valid seeds
there are, and every seed that it has tried has succeeded.  This holds of scans
in batches too: a batch looks at its outcomes one by one and stops where a scan
of single seeds would stop.  A scan ends if no seed within its budget fails.
-/

import LossyConsensus.Proofs.Sampling.Scan

namespace LossyConsensus.Sampling

variable {ε α : Type}
variable {attempt : Int → Except ε α} {isValid : α → Bool} {first : Int} {wanted budget : Nat}

/-- The first `count` seeds are tried with success. -/
def AllSucceed (attempt : Int → Except ε α) (first : Int) (count : Nat) : Prop :=
  ∀ k < count, ∃ outcome, attempt (first + (k : Int)) = .ok outcome

theorem AllSucceed.succ {count : Nat} (h : AllSucceed attempt first count) {outcome : α}
    (houtcome : attempt (first + (count : Int)) = .ok outcome) :
    AllSucceed attempt first (count + 1) := by
  intro k hk
  rcases Nat.lt_succ_iff_lt_or_eq.mp hk with hk | rfl
  · exact h k hk
  · exact ⟨outcome, houtcome⟩

/-- A scan under way whose seeds have all succeeded. -/
structure Progress.Ran (attempt : Int → Except ε α) (isValid : α → Bool) (wanted budget : Nat)
    (first : Int) (count : Nat) (progress : Progress α) : Prop where
  holds : progress.Holds attempt isValid wanted budget first count
  succeeded : AllSucceed attempt first count

theorem Progress.ran_start :
    (Progress.start wanted first : Progress α).Ran attempt isValid wanted budget first 0 where
  holds := Progress.holds_start
  succeeded := by
    intro k hk
    cases hk

theorem Progress.Ran.count {progress : Progress α} {count : Nat}
    (h : progress.Ran attempt isValid wanted budget first count) (hbudget : count < budget)
    (hwanted : progress.wanted ≠ 0) {outcome : α} (houtcome : attempt progress.seed = .ok outcome) :
    (progress.count isValid outcome).Ran attempt isValid wanted budget first (count + 1) :=
  ⟨h.holds.count hbudget hwanted houtcome, h.succeeded.succ (h.holds.seed ▸ houtcome)⟩

/-! ## One seed after the other -/

theorem ran_of_scanFrom {progress last : Progress α} {count left : Nat}
    (hleft : count + left = budget)
    (h : progress.Ran attempt isValid wanted budget first count)
    (hscan : scanFrom attempt isValid left progress = .ok last) :
    ∃ tried, last.Ran attempt isValid wanted budget first tried ∧
      (last.wanted = 0 ∨ tried = budget) := by
  induction left generalizing progress count with
  | zero =>
      cases hscan
      exact ⟨count, h, .inr hleft⟩
  | succ left ih =>
      rw [scanFrom] at hscan
      split at hscan
      · next hdone =>
        cases hscan
        exact ⟨count, h, .inl (beq_iff_eq.mp hdone)⟩
      · next hmore =>
        split at hscan
        · cases hscan
        · next outcome houtcome =>
          exact ih (by omega) (h.count (by omega) (by simpa using hmore) houtcome) hscan

theorem exists_scanFrom_of_allSucceed (isValid : α → Bool) (hall : AllSucceed attempt first budget)
    (progress : Progress α) {count left : Nat} (hleft : count + left = budget)
    (hseed : progress.seed = first + (count : Int)) :
    ∃ last, scanFrom attempt isValid left progress = .ok last := by
  induction left generalizing progress count with
  | zero => exact ⟨progress, rfl⟩
  | succ left ih =>
      obtain ⟨outcome, houtcome⟩ := hall count (by omega)
      rw [← hseed] at houtcome
      rw [scanFrom]
      split
      · exact ⟨progress, rfl⟩
      · rw [houtcome]
        exact @ih _ (count + 1) (by omega) (by rw [Progress.count, hseed]; push_cast; omega)

/-! ## Batches -/

/-- A batch that ends has tried all its seeds or wants nothing more. -/
theorem ran_of_scanBatch {progress last : Progress α} {count size : Nat}
    (hsize : count + size ≤ budget)
    (h : progress.Ran attempt isValid wanted budget first count)
    (hscan : scanBatch attempt isValid size progress = .ok last) :
    ∃ tried, last.Ran attempt isValid wanted budget first tried ∧
      (last.wanted = 0 ∨ tried = count + size) := by
  induction size generalizing progress count with
  | zero =>
      cases hscan
      exact ⟨count, h, .inr rfl⟩
  | succ size ih =>
      rw [scanBatch] at hscan
      split at hscan
      · cases hscan
      · next outcome houtcome =>
        split at hscan
        · next hdone =>
          cases hscan
          exact ⟨count, h, .inl (beq_iff_eq.mp hdone)⟩
        · next hmore =>
          obtain ⟨tried, hran, hends⟩ :=
            ih (by omega) (h.count (by omega) (by simpa using hmore) houtcome) hscan
          exact ⟨tried, hran, hends.imp_right fun htried => by omega⟩

theorem exists_scanBatch_of_allSucceed (isValid : α → Bool)
    (hall : AllSucceed attempt first budget) {progress : Progress α} {count size : Nat}
    (hsize : count + size ≤ budget) (hseed : progress.seed = first + (count : Int)) :
    ∃ last, scanBatch attempt isValid size progress = .ok last := by
  induction size generalizing progress count with
  | zero => exact ⟨progress, rfl⟩
  | succ size ih =>
      obtain ⟨outcome, houtcome⟩ := hall count (by omega)
      rw [← hseed] at houtcome
      rw [scanBatch, houtcome]
      dsimp only
      split
      · exact ⟨progress, rfl⟩
      · exact @ih _ (count + 1) (by omega) (by rw [Progress.count, hseed]; push_cast; omega)

/-- A batch that is needed tries at least one seed and keeps to the budget. -/
theorem batchSize_bounds (workers : Nat) {progress : Progress α} {count : Nat}
    (hattempts : progress.attempts = count) (hwanted : progress.wanted ≠ 0)
    (hbudget : count < budget) :
    0 < batchSize workers budget progress ∧ count + batchSize workers budget progress ≤ budget := by
  rw [batchSize, hattempts]
  omega

theorem scanBatches_of_wanted_eq_zero {progress : Progress α} (h : progress.wanted = 0)
    {workers fuel : Nat} :
    scanBatches attempt isValid workers budget fuel progress = .ok progress := by
  cases fuel with
  | zero => rfl
  | succ fuel => rw [scanBatches, if_pos (by simp [h])]

theorem ran_of_scanBatches {workers fuel : Nat} {progress last : Progress α} {count : Nat}
    (hfuel : budget ≤ count + fuel)
    (h : progress.Ran attempt isValid wanted budget first count)
    (hscan : scanBatches attempt isValid workers budget fuel progress = .ok last) :
    ∃ tried, last.Ran attempt isValid wanted budget first tried ∧
      (last.wanted = 0 ∨ tried = budget) := by
  have hwithin := h.holds.withinBudget
  induction fuel generalizing progress count with
  | zero =>
      cases hscan
      exact ⟨count, h, .inr (by omega)⟩
  | succ fuel ih =>
      have hattempts := h.holds.attempts
      rw [scanBatches] at hscan
      split at hscan
      · next hends =>
        cases hscan
        rw [Bool.or_eq_true, beq_iff_eq, decide_eq_true_eq] at hends
        exact ⟨count, h, hends.imp_right fun hspent => by omega⟩
      · next hmore =>
        rw [Bool.or_eq_true, beq_iff_eq, decide_eq_true_eq, not_or] at hmore
        obtain ⟨hsome, hsize⟩ :=
          batchSize_bounds workers hattempts hmore.1 (by omega : count < budget)
        split at hscan
        · cases hscan
        · next between hbatch =>
          obtain ⟨tried, hran, hends⟩ := ran_of_scanBatch hsize h hbatch
          rcases hends with hdone | htried
          · rw [scanBatches_of_wanted_eq_zero hdone] at hscan
            cases hscan
            exact ⟨tried, hran, .inl hdone⟩
          · exact ih (by omega) hran hscan hran.holds.withinBudget

theorem exists_scanBatches_of_allSucceed (hall : AllSucceed attempt first budget)
    (workers fuel : Nat) {progress : Progress α} {count : Nat}
    (h : progress.Ran attempt isValid wanted budget first count) :
    ∃ last, scanBatches attempt isValid workers budget fuel progress = .ok last := by
  induction fuel generalizing progress count with
  | zero => exact ⟨progress, rfl⟩
  | succ fuel ih =>
      have hattempts := h.holds.attempts
      rw [scanBatches]
      split
      · exact ⟨progress, rfl⟩
      · next hmore =>
        rw [Bool.or_eq_true, beq_iff_eq, decide_eq_true_eq, not_or] at hmore
        obtain ⟨_, hsize⟩ :=
          batchSize_bounds workers hattempts hmore.1 (by omega : count < budget)
        obtain ⟨between, hbatch⟩ :=
          exists_scanBatch_of_allSucceed isValid hall hsize h.holds.seed
        obtain ⟨tried, hran, _⟩ := ran_of_scanBatch hsize h hbatch
        rw [hbatch]
        exact ih hran

/-! ## Whole scans -/

/-- What a scan that has ended knows of the seeds it has tried. -/
structure Scan.Ended (attempt : Int → Except ε α) (isValid : α → Bool) (wanted budget : Nat)
    (first : Int) (scan : Scan α) : Prop where
  finds : scan.Finds attempt isValid wanted budget first
  succeeded : AllSucceed attempt first scan.attempts

theorem Progress.Ran.ended {progress : Progress α} {count : Nat}
    (h : progress.Ran attempt isValid wanted budget first count)
    (hends : progress.wanted = 0 ∨ count = budget) :
    progress.finish.Ended attempt isValid wanted budget first := by
  refine ⟨h.holds.finds hends, ?_⟩
  rw [Progress.finish, h.holds.attempts]
  exact h.succeeded

theorem ended_of_scan {found : Scan α} (h : scan attempt isValid wanted budget first = .ok found) :
    found.Ended attempt isValid wanted budget first := by
  obtain ⟨last, hscan, rfl⟩ := map_eq_ok.mp h
  obtain ⟨tried, hran, hends⟩ := ran_of_scanFrom (Nat.zero_add budget) Progress.ran_start hscan
  exact hran.ended hends

/-- Scanning in batches finds what scanning one by one would find. -/
theorem ended_of_scanParallel {workers : Nat} {found : Scan α}
    (h : scanParallel attempt isValid workers wanted budget first = .ok found) :
    found.Ended attempt isValid wanted budget first := by
  obtain ⟨last, hscan, rfl⟩ := map_eq_ok.mp h
  obtain ⟨tried, hran, hends⟩ := ran_of_scanBatches (by omega) Progress.ran_start hscan
  exact hran.ended hends

theorem exists_scan_of_allSucceed (hall : AllSucceed attempt first budget) :
    ∃ found, scan attempt isValid wanted budget first = .ok found := by
  obtain ⟨last, hscan⟩ := exists_scanFrom_of_allSucceed isValid hall (Progress.start wanted first)
    (Nat.zero_add budget) (Int.add_zero first).symm
  exact ⟨last.finish, map_eq_ok.mpr ⟨last, hscan, rfl⟩⟩

theorem exists_scanParallel_of_allSucceed (hall : AllSucceed attempt first budget)
    (workers : Nat) : ∃ found, scanParallel attempt isValid workers wanted budget first =
      .ok found := by
  have hstart :
      (Progress.start wanted first : Progress α).Ran attempt isValid wanted budget first 0 :=
    Progress.ran_start
  obtain ⟨last, hscan⟩ := exists_scanBatches_of_allSucceed hall workers budget hstart
  exact ⟨last.finish, map_eq_ok.mpr ⟨last, hscan, rfl⟩⟩

/-! ## Two scans -/

theorem length_validSeeds_le {attempt' : Int → Except ε α} {count : Nat}
    (h : ∀ k < count, isValidSeed attempt isValid (first + (k : Int)) = true →
      isValidSeed attempt' isValid (first + (k : Int)) = true) :
    (validSeeds attempt isValid first count).length ≤
      (validSeeds attempt' isValid first count).length := by
  rw [validSeeds, validSeeds, ← List.countP_eq_length_filter, ← List.countP_eq_length_filter]
  refine List.countP_mono_left fun seed hseed => ?_
  obtain ⟨k, hk, rfl⟩ := List.mem_map.mp hseed
  exact h k (List.mem_range.mp hk)

theorem Scan.Finds.length_eq {scan : Scan α}
    (h : scan.Finds attempt isValid wanted budget first) :
    scan.valid.length = (validSeeds attempt isValid first scan.attempts).length := by
  rw [← h.tried, List.length_map]

theorem Scan.Finds.length_le {scan : Scan α}
    (h : scan.Finds attempt isValid wanted budget first) : scan.valid.length ≤ wanted := by
  have hseeds := congrArg List.length h.seeds
  rw [List.length_map, List.length_take] at hseeds
  omega

/-- If every seed that one of two scans tries is valid wherever it is valid for
the other one, then that scan finds no less with no more attempts. -/
theorem Scan.Finds.grows {attempt' : Int → Except ε α} {scan scan' : Scan α}
    (h : scan.Finds attempt isValid wanted budget first)
    (h' : scan'.Finds attempt' isValid wanted budget first)
    (hvalid : ∀ k < scan'.attempts, isValidSeed attempt isValid (first + (k : Int)) = true →
      isValidSeed attempt' isValid (first + (k : Int)) = true) :
    scan.valid.length ≤ scan'.valid.length ∧ scan'.attempts ≤ scan.attempts := by
  have hcounts : ∀ count ≤ scan'.attempts, (validSeeds attempt isValid first count).length ≤
      (validSeeds attempt' isValid first count).length := fun count hcount =>
    length_validSeeds_le fun k hk => hvalid k (Nat.lt_of_lt_of_le hk hcount)
  have hmore : ∀ {count : Nat}, count ≤ scan'.attempts →
      (validSeeds attempt' isValid first count).length ≤
        (validSeeds attempt' isValid first budget).length := fun hcount =>
    (validSeeds_isPrefix _ _ _ (Nat.le_trans hcount h'.withinBudget)).length_le
  have hwithin := h.withinBudget
  have hattempts : scan'.attempts ≤ scan.attempts := by
    -- A scan that stopped earlier had enough, so the other one would have stopped there too.
    by_contra hlater
    have hlater : scan.attempts < scan'.attempts := Nat.lt_of_not_le hlater
    have hbudget := h'.withinBudget
    have hstopped : wanted ≤ (validSeeds attempt isValid first budget).length := by
      by_contra hfew
      have := h.spent (Nat.lt_of_not_le hfew)
      omega
    have hlength := (h.enough hstopped).1
    have hreached := hcounts scan.attempts (Nat.le_of_lt hlater)
    have hall := hmore (Nat.le_of_lt hlater)
    have hfewer := (h'.enough (by omega)).2 scan.attempts hlater
    omega
  refine ⟨?_, hattempts⟩
  by_cases henough : wanted ≤ (validSeeds attempt' isValid first budget).length
  · have hlength := (h'.enough henough).1
    have := h.length_le
    rw [h'.length_eq]
    omega
  · have hspent := h'.spent (by omega)
    have hboth : scan.attempts = scan'.attempts := by omega
    rw [h.length_eq, h'.length_eq, hboth]
    exact hcounts _ (Nat.le_refl _)

end LossyConsensus.Sampling
