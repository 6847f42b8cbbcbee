/-
# What a scan finds

A scan tries seeds in ascending order for as long as it wants more outcomes and
has seeds left.  So it finds the first valid seeds there are, and it stops at
the last one it wanted or at the end of its budget.  Nothing is asked about a
seed that the scan does not reach.
-/

import LossyConsensus.Proofs.Except
import LossyConsensus.Sampling.Scan
import Mathlib.Data.List.Basic

namespace LossyConsensus.Sampling

variable {ε α : Type}

/-! ## Seeds -/

/-- The first `count` seeds from a given one on, in ascending order. -/
def seedsFrom (first : Int) (count : Nat) : List Int :=
  (List.range count).map fun (k : Nat) => first + (k : Int)

/-- Whether an attempt at a seed succeeds with a valid outcome. -/
def isValidSeed (attempt : Int → Except ε α) (isValid : α → Bool) (seed : Int) : Bool :=
  match attempt seed with
  | .ok outcome => isValid outcome
  | .error _ => false

/-- The valid seeds among the first `count`. -/
def validSeeds (attempt : Int → Except ε α) (isValid : α → Bool) (first : Int) (count : Nat) :
    List Int :=
  (seedsFrom first count).filter (isValidSeed attempt isValid)

/-- A seed is reached if fewer valid ones than wanted stand before it; all seeds
that a scan reaches within its budget are tried with success. -/
def ReachedSucceed (attempt : Int → Except ε α) (isValid : α → Bool) (wanted budget : Nat)
    (first : Int) : Prop :=
  ∀ k < budget, (validSeeds attempt isValid first k).length < wanted →
    ∃ outcome, attempt (first + (k : Int)) = .ok outcome

/-- The first `count` seeds are just enough for `wanted` valid ones: the last of
them is the valid seed of that number. -/
def IsEnough (attempt : Int → Except ε α) (isValid : α → Bool) (wanted : Nat) (first : Int)
    (count : Nat) : Prop :=
  (validSeeds attempt isValid first count).length = wanted ∧
    ∀ k < count, (validSeeds attempt isValid first k).length < wanted

variable {attempt : Int → Except ε α} {isValid : α → Bool} {first : Int} {wanted budget : Nat}

@[simp]
theorem length_seedsFrom (first : Int) (count : Nat) : (seedsFrom first count).length = count := by
  rw [seedsFrom, List.length_map, List.length_range]

theorem seedsFrom_succ (first : Int) (count : Nat) :
    seedsFrom first (count + 1) = seedsFrom first count ++ [first + (count : Int)] := by
  rw [seedsFrom, List.range_succ, List.map_append, ← seedsFrom]
  rfl

theorem validSeeds_succ (attempt : Int → Except ε α) (isValid : α → Bool) (first : Int)
    (count : Nat) :
    validSeeds attempt isValid first (count + 1) =
      if isValidSeed attempt isValid (first + (count : Int)) then
        validSeeds attempt isValid first count ++ [first + (count : Int)]
      else validSeeds attempt isValid first count := by
  rw [validSeeds, seedsFrom_succ, List.filter_append, List.filter_singleton, ← validSeeds]
  cases isValidSeed attempt isValid (first + (count : Int)) with
  | true => rfl
  | false => exact List.append_nil _

/-- More seeds add valid ones behind those there are. -/
theorem validSeeds_isPrefix (attempt : Int → Except ε α) (isValid : α → Bool) (first : Int)
    {few many : Nat} (h : few ≤ many) :
    validSeeds attempt isValid first few <+: validSeeds attempt isValid first many := by
  induction h with
  | refl => exact List.prefix_rfl
  | step _ ih =>
      rw [validSeeds_succ]
      split
      · exact ih.trans (List.prefix_append _ _)
      · exact ih

/-! ## One seed after the other -/

/-- A scan under way after the first `count` seeds, within the budget: it has
found their valid ones and still wants some beyond those before its last
seed. -/
structure Progress.Holds (attempt : Int → Except ε α) (isValid : α → Bool) (wanted budget : Nat)
    (first : Int) (count : Nat) (progress : Progress α) : Prop where
  seed : progress.seed = first + (count : Int)
  attempts : progress.attempts = count
  withinBudget : count ≤ budget
  found : progress.found.reverse.map (·.1) = validSeeds attempt isValid first count
  outcomes : ∀ pair ∈ progress.found, attempt pair.1 = .ok pair.2
  left : progress.wanted + (validSeeds attempt isValid first count).length = wanted
  reached : ∀ k < count, (validSeeds attempt isValid first k).length < wanted

theorem Progress.holds_start :
    (Progress.start wanted first : Progress α).Holds attempt isValid wanted budget first 0 where
  seed := (Int.add_zero first).symm
  attempts := rfl
  withinBudget := Nat.zero_le _
  found := rfl
  outcomes := by
    intro pair hpair
    cases hpair
  left := rfl
  reached := by
    intro k hk
    cases hk

theorem Progress.count_of_isValid (progress : Progress α) {outcome : α}
    (h : isValid outcome = true) :
    progress.count isValid outcome =
      ⟨progress.wanted - 1, progress.seed + 1, progress.attempts + 1,
        (progress.seed, outcome) :: progress.found⟩ := by
  rw [Progress.count, h]
  rfl

theorem Progress.count_of_not_isValid (progress : Progress α) {outcome : α}
    (h : isValid outcome = false) :
    progress.count isValid outcome =
      ⟨progress.wanted, progress.seed + 1, progress.attempts + 1, progress.found⟩ := by
  rw [Progress.count, h]
  rfl

/-- Counting the outcome of one more seed. -/
theorem Progress.Holds.count {progress : Progress α} {count : Nat}
    (h : progress.Holds attempt isValid wanted budget first count) (hbudget : count < budget)
    (hwanted : progress.wanted ≠ 0) {outcome : α} (houtcome : attempt progress.seed = .ok outcome) :
    (progress.count isValid outcome).Holds attempt isValid wanted budget first (count + 1) := by
  have hleft := h.left
  have hvalid : isValidSeed attempt isValid (first + (count : Int)) = isValid outcome := by
    rw [isValidSeed, ← h.seed, houtcome]
  have hreached : ∀ k < count + 1, (validSeeds attempt isValid first k).length < wanted := by
    intro k hk
    rcases Nat.lt_succ_iff_lt_or_eq.mp hk with hk | rfl
    · exact h.reached k hk
    · omega
  have hseed : progress.seed + 1 = first + ((count + 1 : Nat) : Int) := by
    rw [h.seed]
    omega
  have hsucc := validSeeds_succ attempt isValid first count
  cases hcase : isValid outcome with
  | true =>
      rw [hvalid, hcase, if_pos rfl] at hsucc
      rw [Progress.count_of_isValid progress hcase]
      refine ⟨hseed, congrArg (· + 1) h.attempts, hbudget, ?_, ?_, ?_, hreached⟩
      · rw [List.reverse_cons, List.map_append, h.found, hsucc, ← h.seed]
        rfl
      · exact List.forall_mem_cons.mpr ⟨houtcome, h.outcomes⟩
      · rw [hsucc, List.length_append, List.length_singleton]
        dsimp only
        omega
  | false =>
      rw [hvalid, hcase, if_neg Bool.false_ne_true] at hsucc
      rw [Progress.count_of_not_isValid progress hcase]
      refine ⟨hseed, congrArg (· + 1) h.attempts, hbudget, ?_, h.outcomes, ?_, hreached⟩
      · rw [hsucc]
        exact h.found
      · rw [hsucc]
        exact hleft

/-- A scan goes on until it wants nothing more or its budget is spent. -/
theorem exists_scanFrom (hreached : ReachedSucceed attempt isValid wanted budget first)
    {progress : Progress α} {count left : Nat} (hleft : count + left = budget)
    (h : progress.Holds attempt isValid wanted budget first count) :
    ∃ last tried, scanFrom attempt isValid left progress = .ok last ∧
      last.Holds attempt isValid wanted budget first tried ∧
      (last.wanted = 0 ∨ tried = budget) := by
  induction left generalizing progress count with
  | zero => exact ⟨progress, count, rfl, h, .inr hleft⟩
  | succ left ih =>
      rw [scanFrom]
      by_cases hwanted : progress.wanted = 0
      · rw [if_pos (beq_iff_eq.mpr hwanted)]
        exact ⟨progress, count, rfl, h, .inl hwanted⟩
      · have hbudget : count < budget := by omega
        have hfew : (validSeeds attempt isValid first count).length < wanted := by
          have := h.left
          omega
        obtain ⟨outcome, houtcome⟩ := hreached count hbudget hfew
        rw [← h.seed] at houtcome
        rw [if_neg (by simpa using hwanted), houtcome]
        exact ih (by omega) (h.count hbudget hwanted houtcome)

/-! ## Whole scans -/

/-- What a scan has found: the first valid seeds of its budget, as many as are
wanted, with their outcomes; it has tried just enough seeds for them, or all
that its budget allows. -/
structure Scan.Finds (attempt : Int → Except ε α) (isValid : α → Bool) (wanted budget : Nat)
    (first : Int) (scan : Scan α) : Prop where
  seeds : scan.valid.map (·.1) = (validSeeds attempt isValid first budget).take wanted
  outcomes : ∀ pair ∈ scan.valid, attempt pair.1 = .ok pair.2
  tried : scan.valid.map (·.1) = validSeeds attempt isValid first scan.attempts
  withinBudget : scan.attempts ≤ budget
  enough : wanted ≤ (validSeeds attempt isValid first budget).length →
    IsEnough attempt isValid wanted first scan.attempts
  spent : (validSeeds attempt isValid first budget).length < wanted → scan.attempts = budget

theorem Progress.Holds.finds {progress : Progress α} {count : Nat}
    (h : progress.Holds attempt isValid wanted budget first count)
    (hends : progress.wanted = 0 ∨ count = budget) :
    progress.finish.Finds attempt isValid wanted budget first := by
  have hleft := h.left
  have hprefix := validSeeds_isPrefix attempt isValid first h.withinBudget
  have hlength := hprefix.length_le
  have hfound : progress.finish.valid.map (·.1) = validSeeds attempt isValid first count := h.found
  have htried : progress.finish.attempts = count := h.attempts
  refine ⟨?_, ?_, ?_, ?_, ?_, ?_⟩
  · rw [hfound]
    rcases hends with hzero | rfl
    · have hall : wanted = (validSeeds attempt isValid first count).length := by omega
      rw [hall]
      exact List.prefix_iff_eq_take.mp hprefix
    · rw [List.take_of_length_le (by omega)]
  · intro pair hpair
    exact h.outcomes pair (List.mem_reverse.mp hpair)
  · rw [hfound, htried]
  · rw [htried]
    exact h.withinBudget
  · intro henough
    rw [htried]
    refine ⟨?_, h.reached⟩
    rcases hends with hzero | rfl
    · omega
    · omega
  · intro hfew
    rw [htried]
    rcases hends with hzero | hbudget
    · omega
    · exact hbudget

/-- A scan whose reached seeds all succeed finds what there is to be found. -/
theorem exists_finds_of_scan (hreached : ReachedSucceed attempt isValid wanted budget first) :
    ∃ found, scan attempt isValid wanted budget first = .ok found ∧
      found.Finds attempt isValid wanted budget first := by
  obtain ⟨last, tried, hscan, hholds, hends⟩ :=
    exists_scanFrom hreached (Nat.zero_add budget) Progress.holds_start
  refine ⟨last.finish, ?_, hholds.finds hends⟩
  rw [scan, hscan]
  rfl

/-- Where every outcome is valid, the first seeds are valid as long as they are
reached. -/
theorem validSeeds_eq_seedsFrom (hreached : ReachedSucceed attempt isValid wanted budget first)
    (hvalid : ∀ outcome, isValid outcome = true) {count : Nat} (hbudget : count ≤ budget)
    (hwanted : count ≤ wanted) :
    validSeeds attempt isValid first count = seedsFrom first count := by
  induction count with
  | zero => rfl
  | succ count ih =>
      have hbefore := ih (by omega) (by omega)
      obtain ⟨outcome, houtcome⟩ := hreached count (by omega) (by
        rw [hbefore, length_seedsFrom]
        omega)
      have hseed : isValidSeed attempt isValid (first + (count : Int)) = true := by
        rw [isValidSeed, houtcome]
        exact hvalid outcome
      rw [validSeeds_succ, if_pos hseed, hbefore, seedsFrom_succ]

section Finds

variable {found : Scan α}

/-- The seeds tried are those of the outcomes found and those that are not valid. -/
theorem Scan.Finds.attempts_eq (h : found.Finds attempt isValid wanted budget first) :
    found.attempts = found.valid.length +
      ((seedsFrom first found.attempts).filter fun seed =>
        !isValidSeed attempt isValid seed).length := by
  have hsplit := List.length_eq_length_filter_add (l := seedsFrom first found.attempts)
    (isValidSeed attempt isValid)
  rw [length_seedsFrom, ← validSeeds, ← h.tried, List.length_map] at hsplit
  exact hsplit

/-- Where every outcome is valid and no more seeds may be tried than are wanted, all
that are wanted are tried and found. -/
theorem Scan.Finds.all_of_valid (h : found.Finds attempt isValid wanted wanted first)
    (hreached : ReachedSucceed attempt isValid wanted wanted first)
    (hvalid : ∀ outcome, isValid outcome = true) :
    found.valid.length = wanted ∧ found.attempts = wanted := by
  have hall := validSeeds_eq_seedsFrom hreached hvalid (Nat.le_refl _) (Nat.le_refl _)
  have hlength := congrArg List.length h.seeds
  rw [hall, List.length_map, List.length_take, length_seedsFrom] at hlength
  have hsplit := h.attempts_eq
  have hwithin := h.withinBudget
  omega

end Finds

end LossyConsensus.Sampling
