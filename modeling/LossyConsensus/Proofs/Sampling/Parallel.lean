/-
# Scans in batches and scans of single seeds

A batch demands the outcome of a seed before it asks whether the seed is still
wanted.  So a scan in batches looks at one seed more than a scan of single seeds
when the last wanted outcome stands before the end of its batch, and at no seed
more when it stands there.  The two scans differ if that one seed fails: then
the scan in batches fails with its fault, though nobody wanted its outcome.
-/

import LossyConsensus.Proofs.Sampling.Batch
import LossyConsensus.Sampling.Trial
import Mathlib.Order.Monotone.Basic

namespace LossyConsensus.Sampling

variable {ε α : Type}
variable {attempt : Int → Except ε α} {isValid : α → Bool} {first : Int} {wanted budget : Nat}

/-! ## One batch -/

/-- Trying some seeds and then some more. -/
theorem scanFrom_add (few more : Nat) (progress : Progress α) :
    scanFrom attempt isValid (few + more) progress =
      scanFrom attempt isValid few progress >>= scanFrom attempt isValid more := by
  induction few generalizing progress with
  | zero => rw [Nat.zero_add]; rfl
  | succ few ih =>
      rw [Nat.succ_add, scanFrom, scanFrom]
      by_cases hdone : progress.wanted = 0
      · rw [if_pos (beq_iff_eq.mpr hdone), if_pos (beq_iff_eq.mpr hdone)]
        cases more with
        | zero => rfl
        | succ more => exact (if_pos (beq_iff_eq.mpr hdone)).symm
      · rw [if_neg (by simpa using hdone), if_neg (by simpa using hdone)]
        cases attempt progress.seed with
        | error fault => rfl
        | ok outcome => exact ih _

theorem scanFrom_of_wanted_eq_zero {progress : Progress α} (h : progress.wanted = 0)
    (left : Nat) : scanFrom attempt isValid left progress = .ok progress := by
  cases left with
  | zero => rfl
  | succ left => rw [scanFrom, if_pos (beq_iff_eq.mpr h)]

theorem Progress.count_attempts (progress : Progress α) (outcome : α) :
    (progress.count isValid outcome).attempts = progress.attempts + 1 :=
  rfl

/-- A batch that is left before its end has demanded the outcome of the seed at
which it was left. -/
theorem scanBatch_eq (size : Nat) (progress : Progress α) :
    scanBatch attempt isValid size progress =
      scanFrom attempt isValid size progress >>= fun last =>
        if last.attempts < progress.attempts + size then
          (attempt last.seed).map fun _ => last
        else .ok last := by
  induction size generalizing progress with
  | zero => exact (if_neg (Nat.lt_irrefl _)).symm
  | succ size ih =>
      by_cases hdone : progress.wanted = 0
      · rw [scanFrom_of_wanted_eq_zero hdone, scanBatch]
        refine Eq.trans ?_ (if_pos (Nat.lt_add_of_pos_right (Nat.succ_pos size))).symm
        cases attempt progress.seed with
        | error fault => rfl
        | ok outcome => exact if_pos (beq_iff_eq.mpr hdone)
      · rw [scanBatch, scanFrom, if_neg (by simpa using hdone)]
        cases attempt progress.seed with
        | error fault => rfl
        | ok outcome =>
            refine (if_neg (by simpa using hdone)).trans ?_
            rw [ih, Progress.count_attempts, Nat.add_assoc, Nat.add_comm 1 size]

/-! ## Where batches end -/

/-- The number of seeds before the end of the batch that begins after `start`
seeds: the batch has a seed for every outcome still wanted and for every worker,
within the budget. -/
def batchStop (attempt : Int → Except ε α) (isValid : α → Bool) (workers wanted budget : Nat)
    (first : Int) (start : Nat) : Nat :=
  start + min (max (wanted - (validSeeds attempt isValid first start).length) workers)
    (budget - start)

/-- A number of seeds is full if a batch ends after it, or none has begun. -/
def IsFull (attempt : Int → Except ε α) (isValid : α → Bool) (workers wanted budget : Nat)
    (first : Int) (tried : Nat) : Prop :=
  ∃ batches, (batchStop attempt isValid workers wanted budget first)^[batches] 0 = tried

variable {workers : Nat}

theorem isFull_zero : IsFull attempt isValid workers wanted budget first 0 :=
  ⟨0, rfl⟩

theorem IsFull.next {start : Nat}
    (h : IsFull attempt isValid workers wanted budget first start) :
    IsFull attempt isValid workers wanted budget first
      (batchStop attempt isValid workers wanted budget first start) := by
  obtain ⟨batches, rfl⟩ := h
  exact ⟨batches + 1, Function.iterate_succ_apply' _ _ _⟩

/-- No batch ends within a batch. -/
theorem IsFull.le_or_batchStop_le {start tried : Nat}
    (hstart : IsFull attempt isValid workers wanted budget first start)
    (htried : IsFull attempt isValid workers wanted budget first tried) :
    tried ≤ start ∨ batchStop attempt isValid workers wanted budget first start ≤ tried := by
  obtain ⟨before, rfl⟩ := hstart
  obtain ⟨batches, rfl⟩ := htried
  have hmono : Monotone fun batches =>
      (batchStop attempt isValid workers wanted budget first)^[batches] 0 := by
    refine monotone_nat_of_le_succ fun batches => ?_
    rw [Function.iterate_succ_apply']
    exact Nat.le_add_right _ _
  rcases Nat.lt_or_ge before batches with hlater | hearlier
  · exact .inr ((Function.iterate_succ_apply' _ _ _).symm.trans_le (hmono hlater))
  · exact .inl (hmono hearlier)

/-- The next batch of a scan under way ends where its size says. -/
theorem Progress.Holds.add_batchSize (workers : Nat) {progress : Progress α} {count : Nat}
    (h : progress.Holds attempt isValid wanted budget first count) :
    count + batchSize workers budget progress =
      batchStop attempt isValid workers wanted budget first count := by
  have hleft : progress.wanted = wanted - (validSeeds attempt isValid first count).length :=
    Nat.eq_sub_of_add_eq h.left
  rw [batchSize, batchStop, h.attempts, hleft]

theorem Progress.Ran.within {progress : Progress α} {count bound : Nat}
    (h : progress.Ran attempt isValid wanted budget first count) (hbound : count ≤ bound) :
    progress.Ran attempt isValid wanted bound first count :=
  ⟨⟨h.holds.seed, h.holds.attempts, hbound, h.holds.found, h.holds.outcomes, h.holds.left,
    h.holds.reached⟩, h.succeeded⟩

/-- A scan of the seeds of one batch comes to its end, where the batch is full,
or stops within it because nothing more is wanted. -/
theorem Progress.Ran.endsBatch {progress : Progress α} {count : Nat}
    (h : progress.Ran attempt isValid wanted budget first count)
    (hfull : IsFull attempt isValid workers wanted budget first count)
    (hwanted : progress.wanted ≠ 0) (hbudget : count < budget) (last : Progress α)
    (hscan : scanFrom attempt isValid (batchSize workers budget progress) progress = .ok last) :
    ∃ tried, last.Ran attempt isValid wanted budget first tried ∧
      (tried = count + batchSize workers budget progress ∧
          IsFull attempt isValid workers wanted budget first tried ∨
        tried < count + batchSize workers budget progress ∧ last.wanted = 0 ∧
          ¬IsFull attempt isValid workers wanted budget first tried) := by
  obtain ⟨_, hsize⟩ := batchSize_bounds workers h.holds.attempts hwanted hbudget
  have hstop := h.holds.add_batchSize workers
  obtain ⟨tried, hran, hends⟩ := ran_of_scanFrom rfl (h.within (Nat.le_add_right count _)) hscan
  refine ⟨tried, hran.within (hran.holds.withinBudget.trans hsize), ?_⟩
  rcases Nat.eq_or_lt_of_le hran.holds.withinBudget with rfl | hbefore
  · exact .inl ⟨rfl, hstop ▸ hfull.next⟩
  · have hdone : last.wanted = 0 := by omega
    have hbegun : count < tried := by
      by_contra hbehind
      have hfewer := (validSeeds_isPrefix attempt isValid first
        (Nat.le_of_not_lt hbehind)).length_le
      have hwas := h.holds.left
      have hnow := hran.holds.left
      omega
    refine .inr ⟨hbefore, hdone, fun hother => ?_⟩
    have := hfull.le_or_batchStop_le hother
    omega

/-- While outcomes are wanted and the budget allows it, a scan goes on with
another batch. -/
theorem scanBatches_succ {fuel : Nat} {progress : Progress α} (hwanted : progress.wanted ≠ 0)
    (hbudget : progress.attempts < budget) :
    scanBatches attempt isValid workers budget (fuel + 1) progress =
      scanBatch attempt isValid (batchSize workers budget progress) progress >>=
        scanBatches attempt isValid workers budget fuel := by
  rw [scanBatches, if_neg (by simp [hwanted, hbudget])]
  cases scanBatch attempt isValid (batchSize workers budget progress) progress with
  | error fault => rfl
  | ok last => rfl

/-! ## The two scans -/

open Classical in
/-- After a scan of single seeds: if the last batch is not full, the outcome of
one more seed is demanded, and what was found stands if there is one. -/
noncomputable def demandNext (attempt : Int → Except ε α) (isValid : α → Bool)
    (workers wanted budget : Nat) (first : Int) (tried : Nat) {β : Type} (found : β) :
    Except ε β :=
  if IsFull attempt isValid workers wanted budget first tried then .ok found
  else (attempt (first + (tried : Int))).map fun _ => found

theorem demandNext_of_isFull {β : Type} {tried : Nat} {found : β}
    (h : IsFull attempt isValid workers wanted budget first tried) :
    demandNext attempt isValid workers wanted budget first tried found = .ok found :=
  if_pos h

theorem demandNext_of_not_isFull {β : Type} {tried : Nat} {found : β}
    (h : ¬IsFull attempt isValid workers wanted budget first tried) :
    demandNext attempt isValid workers wanted budget first tried found =
      (attempt (first + (tried : Int))).map fun _ => found :=
  if_neg h

/-- A scan that begins a batch does what a scan of single seeds does, and demands
one more outcome if it does not end with a full batch. -/
theorem scanBatches_eq {fuel : Nat} {progress : Progress α} {count : Nat}
    (hfuel : budget ≤ count + fuel)
    (h : progress.Ran attempt isValid wanted budget first count)
    (hfull : IsFull attempt isValid workers wanted budget first count) :
    scanBatches attempt isValid workers budget fuel progress =
      scanFrom attempt isValid (budget - count) progress >>= fun last =>
        demandNext attempt isValid workers wanted budget first last.attempts last := by
  have hattempts := h.holds.attempts
  have hended : demandNext attempt isValid workers wanted budget first progress.attempts progress =
      .ok progress := demandNext_of_isFull (hattempts ▸ hfull)
  induction fuel generalizing progress count with
  | zero =>
      have hspent : budget - count = 0 := by omega
      rw [hspent]
      exact hended.symm
  | succ fuel ih =>
      by_cases hdone : progress.wanted = 0
      · rw [scanBatches_of_wanted_eq_zero hdone, scanFrom_of_wanted_eq_zero hdone]
        exact hended.symm
      by_cases hspent : budget ≤ count
      · have hleft : budget - count = 0 := by omega
        rw [scanBatches, if_pos (by simp [hattempts, hspent]), hleft]
        exact hended.symm
      have hbudget : count < budget := Nat.lt_of_not_le hspent
      obtain ⟨hsome, hsize⟩ := batchSize_bounds workers hattempts hdone hbudget
      have hbatch := h.endsBatch hfull hdone hbudget
      rw [scanBatches_succ hdone (hattempts ▸ hbudget)]
      generalize batchSize workers budget progress = size at *
      have hsplit : budget - count = size + (budget - (count + size)) := by omega
      rw [scanBatch_eq, hsplit, scanFrom_add, bind_assoc, bind_assoc]
      cases hscan : scanFrom attempt isValid size progress with
      | error fault => rfl
      | ok last =>
          obtain ⟨tried, hran, hends⟩ := hbatch last hscan
          have htried := hran.holds.attempts
          change ((if last.attempts < progress.attempts + size then
              (attempt last.seed).map fun _ => last else .ok last) >>=
              scanBatches attempt isValid workers budget fuel) =
            scanFrom attempt isValid (budget - (count + size)) last >>= fun last =>
              demandNext attempt isValid workers wanted budget first last.attempts last
          rcases hends with ⟨rfl, hnext⟩ | ⟨hbefore, hwanted, hpartial⟩
          · rw [if_neg (by omega)]
            exact ih (by omega) hran hnext htried (demandNext_of_isFull (htried.symm ▸ hnext))
          · rw [if_pos (by omega), scanFrom_of_wanted_eq_zero hwanted, hran.holds.seed]
            change _ = demandNext attempt isValid workers wanted budget first last.attempts last
            rw [htried, demandNext_of_not_isFull hpartial]
            cases attempt (first + (tried : Int)) with
            | error fault => rfl
            | ok outcome => exact scanBatches_of_wanted_eq_zero hwanted

/-- What a scan in batches answers, whatever the outcomes of the seeds: the
answer of a scan of single seeds, unless that scan finds enough within a batch
and the next seed fails. -/
theorem scanParallel_eq (attempt : Int → Except ε α) (isValid : α → Bool)
    (workers wanted budget : Nat) (first : Int) :
    scanParallel attempt isValid workers wanted budget first =
      scan attempt isValid wanted budget first >>= fun found =>
        demandNext attempt isValid workers wanted budget first found.attempts found := by
  rw [scanParallel, scan, scanBatches_eq (Nat.le_add_left _ _) Progress.ran_start isFull_zero,
    Nat.sub_zero]
  cases scanFrom attempt isValid budget (Progress.start wanted first) with
  | error fault => rfl
  | ok last =>
      change (demandNext attempt isValid workers wanted budget first last.attempts last).map
          Progress.finish =
        demandNext attempt isValid workers wanted budget first last.attempts last.finish
      by_cases hfull : IsFull attempt isValid workers wanted budget first last.attempts
      · rw [demandNext_of_isFull hfull, demandNext_of_isFull hfull]
        rfl
      · rw [demandNext_of_not_isFull hfull, demandNext_of_not_isFull hfull]
        cases attempt (first + (last.attempts : Int)) with
        | error fault => rfl
        | ok outcome => rfl

/-! ## One worker -/

theorem length_validSeeds_add_le (attempt : Int → Except ε α) (isValid : α → Bool) (first : Int)
    (few more : Nat) :
    (validSeeds attempt isValid first (few + more)).length ≤
      (validSeeds attempt isValid first few).length + more := by
  induction more with
  | zero => exact Nat.le_refl _
  | succ more ih =>
      rw [← Nat.add_assoc, validSeeds_succ]
      split
      · rw [List.length_append, List.length_singleton]
        omega
      · omega

/-- A batch with no more workers than outcomes wanted is never left before its
end, for it has just enough seeds. -/
theorem isFull_of_workers_le_one (hworkers : workers ≤ 1) {found : Scan α}
    (h : found.Finds attempt isValid wanted budget first) :
    IsFull attempt isValid workers wanted budget first found.attempts := by
  have hreach : ∀ left start, start + left = found.attempts →
      IsFull attempt isValid workers wanted budget first start →
      IsFull attempt isValid workers wanted budget first found.attempts := by
    intro left
    induction left using Nat.strong_induction_on with
    | h left ih =>
        intro start hstart hfull
        rcases Nat.eq_zero_or_pos left with rfl | hpos
        · exact hstart ▸ hfull
        have hbudget := h.withinBudget
        have hgained := length_validSeeds_add_le attempt isValid first start left
        rw [hstart] at hgained
        have hstop : start < batchStop attempt isValid workers wanted budget first start ∧
            batchStop attempt isValid workers wanted budget first start ≤
              found.attempts := by
          rw [batchStop]
          by_cases henough : wanted ≤ (validSeeds attempt isValid first budget).length
          · obtain ⟨hall, hfewer⟩ := h.enough henough
            have hfew := hfewer start (by omega)
            omega
          · have hspent := h.spent (Nat.lt_of_not_le henough)
            have hfew := (validSeeds_isPrefix attempt isValid first
              (by omega : start ≤ budget)).length_le
            omega
        refine ih (found.attempts - batchStop attempt isValid workers wanted budget first start)
          ?_ _ ?_ hfull.next
        · omega
        · omega
  exact hreach _ 0 (Nat.zero_add _) isFull_zero

/-! ## What becomes of the answer -/

theorem scanParallel_of_scan_eq_error {fault : ε}
    (h : scan attempt isValid wanted budget first = .error fault) (workers : Nat) :
    scanParallel attempt isValid workers wanted budget first = .error fault := by
  rw [scanParallel_eq, h]
  rfl

theorem scanParallel_of_scan_eq_ok {found : Scan α}
    (h : scan attempt isValid wanted budget first = .ok found) (workers : Nat) :
    scanParallel attempt isValid workers wanted budget first =
      demandNext attempt isValid workers wanted budget first found.attempts found := by
  rw [scanParallel_eq, h]
  rfl

theorem demandNext_eq_ok {β : Type} {tried : Nat} {found result : β}
    (h : demandNext attempt isValid workers wanted budget first tried found = .ok result) :
    found = result := by
  by_cases hfull : IsFull attempt isValid workers wanted budget first tried
  · rw [demandNext_of_isFull hfull] at h
    cases h
    rfl
  · rw [demandNext_of_not_isFull hfull, map_eq_ok] at h
    obtain ⟨_, _, hfound⟩ := h
    exact hfound

theorem demandNext_eq_error {β : Type} {tried : Nat} {found : β} {fault : ε} :
    demandNext attempt isValid workers wanted budget first tried found = .error fault ↔
      ¬IsFull attempt isValid workers wanted budget first tried ∧
        attempt (first + (tried : Int)) = .error fault := by
  by_cases hfull : IsFull attempt isValid workers wanted budget first tried
  · rw [demandNext_of_isFull hfull]
    constructor
    · intro h
      cases h
    · intro h
      exact absurd hfull h.1
  · rw [demandNext_of_not_isFull hfull, map_eq_error]
    exact ⟨fun h => ⟨hfull, h⟩, fun h => h.2⟩

/-- A scan in batches fails wherever a scan of single seeds fails, with the same
fault, and answers nothing else than that scan.  It fails beyond that scan
exactly when the last batch is not full and its next seed fails, which takes
more than one worker. -/
theorem scan_in_batches_answers_or_fails_beyond (attempt : Int → Except ε α) (isValid : α → Bool)
    (workers wanted budget : Nat) (first : Int) :
    (∀ fault, scan attempt isValid wanted budget first = .error fault →
      scanParallel attempt isValid workers wanted budget first = .error fault) ∧
    (∀ found, scanParallel attempt isValid workers wanted budget first = .ok found →
      scan attempt isValid wanted budget first = .ok found) ∧
    (∀ found, scan attempt isValid wanted budget first = .ok found →
      ∀ fault, scanParallel attempt isValid workers wanted budget first = .error fault ↔
        1 < workers ∧ ¬IsFull attempt isValid workers wanted budget first found.attempts ∧
          attempt (first + (found.attempts : Int)) = .error fault) := by
  refine ⟨fun fault hscan => scanParallel_of_scan_eq_error hscan workers, ?_, ?_⟩
  · intro found hparallel
    cases hscan : scan attempt isValid wanted budget first with
    | error fault =>
        rw [scanParallel_of_scan_eq_error hscan] at hparallel
        cases hparallel
    | ok single =>
        rw [scanParallel_of_scan_eq_ok hscan] at hparallel
        exact congrArg Except.ok (demandNext_eq_ok hparallel)
  · intro found hscan fault
    rw [scanParallel_of_scan_eq_ok hscan, demandNext_eq_error]
    constructor
    · rintro ⟨hpartial, hfails⟩
      refine ⟨Nat.lt_of_not_le fun hone => hpartial ?_, hpartial, hfails⟩
      exact isFull_of_workers_le_one hone (ended_of_scan hscan).finds
    · exact fun h => h.2

/-- Scanning in batches is not the same as scanning single seeds: with two
workers and one outcome wanted, the first seed is enough, but the second seed of
the batch fails. -/
theorem scan_in_batches_demands_unwanted_seed :
    ∃ attempt : Int → Except Unit Unit,
      scan attempt (fun _ => true) 1 2 0 = .ok { valid := [(0, ())], attempts := 1 } ∧
        scanParallel attempt (fun _ => true) 2 1 2 0 = .error () :=
  ⟨fun seed => if seed = 0 then .ok () else .error (), rfl, rfl⟩

/-- The number of workers decides nothing about repeated runs but whether one
more run is demanded. -/
theorem scanRuns_eq {R : Type} [Scalar R] (experiment : Simulation.Experiment R)
    (config : Config R) (assignment : Network.Assignment) :
    scanRuns experiment config assignment =
      scanRuns experiment { config with workers := 1 } assignment >>= fun found =>
        demandNext (Sampling.attempt experiment config.tolerance) (Sampling.isValid assignment)
          config.workers.toNat config.repetitions.toNat (maxAttempts config assignment)
          config.seed found.attempts found := by
  have hsingle : scanRuns experiment { config with workers := 1 } assignment =
      scan (Sampling.attempt experiment config.tolerance) (Sampling.isValid assignment)
        config.repetitions.toNat (maxAttempts config assignment) config.seed := rfl
  rw [hsingle, scanRuns]
  split
  · exact scanParallel_eq _ _ _ _ _ _
  · next hone =>
    cases hscan : scan (Sampling.attempt experiment config.tolerance)
        (Sampling.isValid assignment) config.repetitions.toNat (maxAttempts config assignment)
        config.seed with
    | error fault => rfl
    | ok found =>
        have hfull := isFull_of_workers_le_one (by omega : config.workers.toNat ≤ 1)
          (ended_of_scan hscan).finds
        exact (demandNext_of_isFull hfull).symm

end LossyConsensus.Sampling
