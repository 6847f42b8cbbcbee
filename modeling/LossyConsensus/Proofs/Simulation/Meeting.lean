/-
# Two processes that meet

Two processes start apart, and whoever hears that the other one has a different
value goes to a point between them.  Where each message arrives with probability
`p`, every round multiplies the expected discrepancy by `1 - p`, wherever the
meeting point lies.
-/

import LossyConsensus.Proofs.Scalar.Exact
import LossyConsensus.Proofs.Simulation.Pattern
import LossyConsensus.Source.Protocol
import Mathlib.Tactic.NormNum
import Mathlib.Tactic.Ring

namespace LossyConsensus.Simulation

open LossyConsensus.Network LossyConsensus.Protocol LossyConsensus.Random

/-! ## The protocol -/

section Protocol

variable {R : Type} [Scalar R]

/-- Go to the meeting point on hearing of a different value, else stay. -/
def meetingRule : Rule R :=
  .choose (.receivedDiff "x") (.assign (.plain "x") (.parameter "y")) (.assign (.plain "x") .own)

/-- Two processes with the meeting point `y`. -/
def meetingProtocol (y : R) : LossyConsensus.Protocol R where
  name := "AMP"
  processes := 2
  initial := .values [Scalar.zero, Scalar.ofNat 1]
  phases := [{ kind := .eachRound, rule := meetingRule }]
  metrics := .both
  settings := [("y", .real y), ("channel_guarantee", .guarantee .none)]
  models := [{ kind := .standard }]
  stateVar := "x"
  domain := none

/-- The text of the protocol with the meeting point halfway. -/
def meetingText : String :=
  String.intercalate "\n" ["PROTOCOL AMP", "PROCESSES: 2", "STATE: x", "INITIAL VALUES: [0, 1]",
    "PARAMETERS: y = 0.5", "CHANNEL: stochastic", "UPDATE RULE:",
    "if received_diff then x <- y else x <- x"]

example : Source.readProtocol meetingText = .ok (meetingProtocol 0.5) := by decide +kernel

end Protocol

/-- The protocol bound to a delivery probability and a number of rounds, without
topology and faults. -/
def meeting (y p : ℚ) (rounds : Nat) : Experiment ℚ where
  name := "AMP"
  processes := 2
  rounds := rounds
  p := p
  phases := [{ kind := .eachRound, rule := meetingRule }]
  leader := none
  parameters := [("y", y)]
  initial := .values [0, 1]
  models := [{ kind := .standard }]
  channel := .guarantee .none
  topology := none
  faults := none

variable {y p a b : ℚ}

theorem ofProtocol_meeting (hp : 0 ≤ p ∧ p ≤ 1) (rounds : Nat) :
    Experiment.ofProtocol (meetingProtocol y) p rounds none none = .ok (meeting y p rounds) := by
  have hprobability : Scalar.isProbability p = true := by
    simp [Scalar.isProbability, hp]
  rw [Experiment.ofProtocol, hprobability]
  rfl

/-! ## One round -/

theorem meetingRule_eval {view : View ℚ} (h : view.parameters = [("y", y)]) :
    meetingRule.eval view = .ok (if view.differing.isEmpty then view.own else y) := by
  cases hdiffering : view.differing.isEmpty with
  | true => simp [meetingRule, Rule.eval, Predicate.eval, Expr.eval, hdiffering]
  | false => simp [meetingRule, Rule.eval, Predicate.eval, Expr.eval, hdiffering, h]

/-- A process that hears of the other one goes to the meeting point, unless their
values agree.  Then they agree on the meeting point, if this lies between them. -/
theorem apply_meeting {rounds : Nat} (round : Int) (consensus : Bool) (id sender : Int)
    {own value : ℚ} (hagreed : value = own → own = y) (arrives : Bool) :
    (meeting y p rounds).apply
        ((meeting y p rounds).view id own (if arrives then [(sender, value)] else []))
        round consensus = .ok (if arrives then y else own) := by
  cases arrives with
  | false => rfl
  | true =>
      have hrule : (meeting y p rounds).apply ((meeting y p rounds).view id own [(sender, value)])
          round consensus =
            meetingRule.eval ((meeting y p rounds).view id own [(sender, value)]) >>= .ok := rfl
      rw [if_pos rfl, hrule, meetingRule_eval rfl, ok_bind]
      by_cases hsame : value = own
      · simp [View.differing, View.received, Experiment.view, hsame, hagreed hsame]
      · simp [View.differing, View.received, Experiment.view, hsame]

/-- Where the first process is after a round: the second slot is that of the message
to it. -/
def leftAfter (y a : ℚ) (row : Fin 2 → Bool) : ℚ :=
  if row 1 then y else a

/-- Where the second process is after a round: the first slot is that of the message
to it. -/
def rightAfter (y b : ℚ) (row : Fin 2 → Bool) : ℚ :=
  if row 0 then y else b

theorem leftAfter_le (row : Fin 2 → Bool) (h : a ≤ y) : leftAfter y a row ≤ y := by
  rw [leftAfter]
  split
  · exact le_rfl
  · exact h

theorem le_rightAfter (row : Fin 2 → Bool) (h : y ≤ b) : y ≤ rightAfter y b row := by
  rw [rightAfter]
  split
  · exact le_rfl
  · exact h

/-- The inboxes of the two processes, each with what has arrived from the other. -/
def meetingInboxes (a b : ℚ) (row : Fin 2 → Bool) : Inboxes ℚ :=
  [(1, if row 1 then [⟨2, 1, b⟩] else []), (2, if row 0 then [⟨1, 2, a⟩] else [])]

theorem exchangeBy_meeting {rounds : Nat} {round : Int} {network : Network ℚ}
    (hopen : network.neighbors = none) (row : Fin 2 → Bool) :
    exchangeBy (meeting y p rounds) network [a, b] round (List.ofFn row) =
      .ok (meetingInboxes a b row) := by
  have hrow : List.ofFn row = [row 0, row 1] := rfl
  rw [exchangeBy, sent_eq_flood hopen rfl, ok_bind, hrow, meetingInboxes]
  cases row 0 <;> cases row 1 <;> rfl

/-- A round of the two processes.  As long as the meeting point lies between them,
each of them is there after it has heard of the other. -/
theorem playRoundBy_meeting (p : ℚ) (rounds round : Nat) (tolerance : ℚ) {network : Network ℚ}
    (hopen : network.neighbors = none) (hab : a ≤ y ∧ y ≤ b) (row : Fin 2 → Bool) :
    ∃ step, playRoundBy (meeting y p rounds) network tolerance round [a, b] (List.ofFn row) =
        .ok step ∧ step.after = [leftAfter y a row, rightAfter y b row] := by
  let consensus := isConsensus tolerance [a, b]
  have hleft : (meeting y p rounds).apply ((meeting y p rounds).view 1 a
      (packed ((meetingInboxes a b row).get 1))) round consensus =
        .ok (leftAfter y a row) := by
    have hinbox : packed ((meetingInboxes a b row).get 1) =
        if row 1 then [(2, b)] else [] := by
      rw [meetingInboxes]
      cases row 1 <;> rfl
    rw [hinbox]
    refine apply_meeting round consensus 1 2 (fun hsame => ?_) (row 1)
    exact le_antisymm hab.1 (hsame ▸ hab.2)
  have hright : (meeting y p rounds).apply ((meeting y p rounds).view 2 b
      (packed ((meetingInboxes a b row).get 2))) round consensus =
        .ok (rightAfter y b row) := by
    have hinbox : packed ((meetingInboxes a b row).get 2) =
        if row 0 then [(1, a)] else [] := by
      rw [meetingInboxes]
      cases row 0 <;> rfl
    rw [hinbox]
    refine apply_meeting round consensus 2 1 (fun hsame => ?_) (row 0)
    exact le_antisymm (hsame ▸ hab.1) hab.2
  have hcommit : commit (meeting y p rounds) round (meetingInboxes a b row) [a, b]
      (fun view => (meeting y p rounds).apply view round consensus) =
        .ok [leftAfter y a row, rightAfter y b row] := by
    refine mapM_eq_ok.mpr (.cons ?_ (.cons ?_ .nil))
    · exact bind_eq_ok.mpr ⟨_, mapError_eq_ok.mpr hleft, rfl⟩
    · exact bind_eq_ok.mpr ⟨_, mapError_eq_ok.mpr hright, rfl⟩
  rw [playRoundBy, exchangeBy_meeting hopen, ok_bind, settle, hcommit, ok_bind]
  exact ⟨_, rfl, rfl⟩

/-! ## All patterns -/

theorem discrepancy_pair (h : a ≤ b) : discrepancy [a, b] = b - a := by
  have hgreatest : Scalar.greatest a [b] = b := by
    rcases h.lt_or_eq with hlt | rfl
    · exact if_pos (Scalar.lt_exact.mpr hlt)
    · exact ite_self a
  have hleast : Scalar.least a [b] = a := if_neg (mt Scalar.lt_exact.mp h.not_gt)
  rw [discrepancy, hgreatest, hleast]

/-- Each process stays where it is if the message to it is lost, so the distance that is
expected to be left is to the old one as a loss is to certainty. -/
theorem sum_rowWeight_mul_distance (y p a b : ℚ) :
    ∑ row, Pattern.rowWeight p row * (rightAfter y b row - leftAfter y a row) =
      (1 - p) * (b - a) := by
  rw [← (finTwoArrowEquiv Bool).symm.sum_comp, Fintype.sum_prod_type]
  simp only [Fintype.sum_bool, finTwoArrowEquiv_symm_apply, Pattern.rowWeight, Fin.prod_univ_two,
    leftAfter, rightAfter, Matrix.cons_val_zero, Matrix.cons_val_one, if_true, Bool.false_eq_true,
    if_false]
  ring

/-- Under every pattern the rounds are played to the end, and each of them multiplies
the expected discrepancy by the probability of a loss. -/
theorem sum_weight_mul_discrepancy (p : ℚ) (rounds : Nat) (tolerance : ℚ)
    {network : Network ℚ} (hopen : network.neighbors = none) (hab : a ≤ y ∧ y ≤ b)
    (count round : Nat) :
    ∃ steps : Pattern count 2 → List (Step ℚ),
      (∀ pattern, playRoundsBy (meeting y p rounds) network tolerance pattern.rows round [a, b] =
        .ok (steps pattern)) ∧
      ∑ pattern, pattern.weight p * discrepancy (valuesAfter [a, b] (steps pattern)) =
        (1 - p) ^ count * (b - a) := by
  induction count generalizing a b round with
  | zero =>
      refine ⟨fun _ => [], fun _ => rfl, ?_⟩
      have hstart : discrepancy (valuesAfter [a, b] []) = b - a :=
        discrepancy_pair (hab.1.trans hab.2)
      simp [hstart, Pattern.weight]
  | succ count ih =>
      choose step hstep hafter using
        playRoundBy_meeting p rounds round tolerance hopen hab
      choose steps hsteps hsum using fun row =>
        ih ⟨leftAfter_le row hab.1, le_rightAfter row hab.2⟩ (round + 1)
      refine ⟨fun pattern => step (pattern 0) :: steps (pattern 0) (Fin.tail pattern), ?_, ?_⟩
      · intro pattern
        have hrows := Pattern.rows_cons (pattern 0) (Fin.tail pattern)
        rw [Fin.cons_self_tail] at hrows
        rw [hrows, playRoundsBy, hstep, ok_bind, hafter, hsteps]
        rfl
      · calc
          _ = ∑ row, ∑ rest, Pattern.rowWeight p row * (Pattern.weight p rest *
                discrepancy (valuesAfter [leftAfter y a row, rightAfter y b row]
                  (steps row rest))) := by
            rw [Pattern.sum_succ]
            simp only [Pattern.weight_cons, valuesAfter_cons, Fin.cons_zero, Fin.tail_cons,
              hafter, mul_assoc]
          _ = ∑ row, (1 - p) ^ count *
                (Pattern.rowWeight p row * (rightAfter y b row - leftAfter y a row)) := by
            refine Finset.sum_congr rfl fun row _ => ?_
            rw [← Finset.mul_sum, hsum, mul_left_comm]
          _ = (1 - p) ^ (count + 1) * (b - a) := by
            rw [← Finset.mul_sum, sum_rowWeight_mul_distance, pow_succ, mul_assoc]

/-- A run from a seed is the one under the pattern that its draws make. -/
theorem exists_pattern_of_seed {rounds : Nat} {tolerance : ℚ} {seed : Int}
    {generator : Generator} (hseed : Generator.ofSeed seed = .ok generator) :
    ∃ pattern : Pattern rounds 2, pattern.rows = drawnPattern .standard p 2 rounds generator ∧
      run (meeting y p rounds) seed tolerance =
        runBy (meeting y p rounds) tolerance pattern.rows := by
  have hmodel : ∀ assignment, Assignment.ofSpecs (meeting y p rounds).models
      (meeting y p rounds).processes = .ok assignment →
        ∀ id ∈ processIds (meeting y p rounds).processes, assignment.model id = .standard := by
    intro assignment hassignment id _
    cases hassignment
    rw [Assignment.model]
    split
    · rfl
    · rfl
  obtain ⟨hrounds, hslots⟩ := length_drawnPattern .standard p 2 rounds generator
  obtain ⟨pattern, hpattern⟩ := Pattern.exists_rows_eq hrounds hslots
  refine ⟨pattern, hpattern, ?_⟩
  rw [hpattern, run_eq_runBy rfl rfl hmodel, hseed]
  rfl

/-- Two processes that start at zero and one meet at a point between them.  If each of
the two messages of each round arrives with probability `p`, independently of all
others, then the expected discrepancy at the end is a power of `1 - p`, with a factor
for every round.  Every pattern of arrivals has a run, and that of a seed is the one of
its draws. -/
theorem expected_discrepancy_of_meeting {y p : ℚ} (hy : 0 ≤ y ∧ y ≤ 1) (hp : 0 ≤ p ∧ p ≤ 1)
    (rounds : Nat) (tolerance : ℚ) :
    ∃ (experiment : Experiment ℚ) (finished : Pattern rounds 2 → Run ℚ),
      Experiment.ofProtocol (meetingProtocol y) p rounds none none = .ok experiment ∧
      (∀ pattern, runBy experiment tolerance pattern.rows = .ok (finished pattern)) ∧
      (∀ seed generator, Generator.ofSeed seed = .ok generator →
        ∃ pattern : Pattern rounds 2,
          pattern.rows = drawnPattern .standard p 2 rounds generator ∧
            run experiment seed tolerance = .ok (finished pattern)) ∧
      ∑ pattern, pattern.weight p * ((finished pattern).summary tolerance).finalDiscrepancy =
        (1 - p) ^ rounds := by
  obtain ⟨network, hnetwork, hopen⟩ : ∃ network,
      Network.ofExperiment (meeting y p rounds) = .ok network ∧ network.neighbors = none :=
    ⟨_, rfl, rfl⟩
  obtain ⟨steps, hplays, hsum⟩ :=
    sum_weight_mul_discrepancy p rounds tolerance hopen hy rounds 1
  have hruns : ∀ pattern : Pattern rounds 2,
      runBy (meeting y p rounds) tolerance pattern.rows = .ok ⟨[0, 1], steps pattern⟩ := by
    intro pattern
    have hstart : initialValues (meeting y p rounds) = .ok [0, 1] := rfl
    rw [runBy, hnetwork, ok_bind, hstart, ok_bind, hplays, ok_bind]
    rfl
  refine ⟨meeting y p rounds, fun pattern => ⟨[0, 1], steps pattern⟩, ofProtocol_meeting hp rounds,
    hruns, ?_, ?_⟩
  · intro seed generator hseed
    obtain ⟨pattern, hdrawn, hrun⟩ := exists_pattern_of_seed hseed
    exact ⟨pattern, hdrawn, hrun.trans (hruns pattern)⟩
  · rw [sub_zero, mul_one] at hsum
    exact hsum

/-- Two rounds with the meeting point halfway, in which a quarter of the messages is
lost, leave a sixteenth of the discrepancy. -/
theorem expected_discrepancy_halfway :
    ((0 : ℚ) ≤ 1 / 2 ∧ (1 / 2 : ℚ) ≤ 1) ∧ ((0 : ℚ) ≤ 3 / 4 ∧ (3 / 4 : ℚ) ≤ 1) ∧
    ∃ (experiment : Experiment ℚ) (finished : Pattern 2 2 → Run ℚ),
      Experiment.ofProtocol (meetingProtocol (1 / 2)) (3 / 4) 2 none none = .ok experiment ∧
      (∀ pattern, runBy experiment 0 pattern.rows = .ok (finished pattern)) ∧
      (∀ seed generator, Generator.ofSeed seed = .ok generator →
        ∃ pattern : Pattern 2 2, pattern.rows = drawnPattern .standard (3 / 4 : ℚ) 2 2 generator ∧
          run experiment seed 0 = .ok (finished pattern)) ∧
      ∑ pattern, pattern.weight (3 / 4) * ((finished pattern).summary 0).finalDiscrepancy =
        1 / 16 := by
  have hy : (0 : ℚ) ≤ 1 / 2 ∧ (1 / 2 : ℚ) ≤ 1 := by norm_num
  have hp : (0 : ℚ) ≤ 3 / 4 ∧ (3 / 4 : ℚ) ≤ 1 := by norm_num
  obtain ⟨experiment, finished, hbound, hruns, hseeds, hsum⟩ :=
    expected_discrepancy_of_meeting hy hp 2 0
  have hpower : (1 - 3 / 4 : ℚ) ^ 2 = 1 / 16 := by norm_num
  exact ⟨hy, hp, experiment, finished, hbound, hruns, hseeds, hsum.trans hpower⟩

end LossyConsensus.Simulation
