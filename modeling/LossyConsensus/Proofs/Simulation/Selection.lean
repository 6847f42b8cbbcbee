/-
# Rules that only select

A protocol whose rules choose among the values that processes hold, and whose
faults only drop messages, makes no value of its own: every value of a run is an
initial one, at the end too.  As long as all of them are numbers, each state only
has values of the state before it, so the least value never falls and the greatest
one never rises from round to round.
-/

import LossyConsensus.Proofs.Scalar.Double
import LossyConsensus.Proofs.Simulation.Blend

namespace LossyConsensus.Simulation

open LossyConsensus.Network LossyConsensus.Protocol LossyConsensus.Random

/-- Scalars that keep the round and the process where they have arisen. -/
class LastingScalar (R : Type) [Scalar R] : Prop where
  arise_arise (round round' : Nat) (process process' : Int) (value : R) :
    Scalar.arise round' process' (Scalar.arise round process value) =
      Scalar.arise round process value

instance : LastingScalar Float where
  arise_arise _ _ _ _ _ := rfl

instance : LastingScalar Value where
  arise_arise round round' process process' value := by
    change Value.arise _ _ (Value.arise _ _ value) = Value.arise _ _ value
    unfold Value.arise
    split
    · rfl
    · rw [if_pos (by simp)]

variable {R : Type} [Scalar R] {experiment : Experiment R} {seed : Int} {tolerance : R}

/-- Initial values have arisen at the start already. -/
theorem arise_of_mem_start [LastingScalar R] {values : List R}
    (h : initialValues experiment = .ok values) {value : R} (hvalue : value ∈ values)
    (round : Nat) (process : Int) : Scalar.arise round process value = value := by
  obtain ⟨index, hindex, rfl⟩ := List.mem_iff_getElem.mp hvalue
  have hall := mapM_eq_ok.mp h
  have hat := (List.forall₂_iff_get.mp hall).2 index (by rw [hall.length_eq]; exact hindex) hindex
  obtain ⟨made, _, hmade⟩ := bind_eq_ok.mp hat
  have harisen : Scalar.arise 0 _ made = values[index] := pure_eq_ok.mp hmade
  rw [← harisen, LastingScalar.arise_arise]

variable [LawfulScalar R]

/-- The extreme of some of the numbers does not lie beyond the extreme of all of
them. -/
theorem bounds_pick_of_subset (extreme : Extreme) {first first' : R} {rest rest' : List R}
    (hnumbers : ∀ value ∈ first :: rest, Scalar.IsNumber value)
    (hsubset : ∀ value ∈ first' :: rest', value ∈ first :: rest) :
    extreme.bounds (extreme.pick first rest) (extreme.pick first' rest') = true := by
  obtain ⟨hfirst, hrest⟩ := List.forall_mem_cons.mp hnumbers
  exact (extreme.attained_pick hfirst hrest).2 _ (hsubset _ (extreme.pick_mem first' rest'))

/-- As many values that are all among some numbers have their extremes within the
range of these. -/
theorem range_of_subset {values others : List R}
    (hnumbers : ∀ value ∈ values, Scalar.IsNumber value) (hlength : others.length = values.length)
    (hsubset : ∀ value ∈ others, value ∈ values) :
    (∀ low, Scalar.least? values = some low →
      ∃ low', Scalar.least? others = some low' ∧ Scalar.le low low' = true) ∧
    ∀ high, Scalar.greatest? values = some high →
      ∃ high', Scalar.greatest? others = some high' ∧ Scalar.le high' high = true := by
  cases values with
  | nil =>
      constructor
      · rintro low ⟨⟩
      · rintro high ⟨⟩
  | cons first rest =>
      cases others with
      | nil => cases hlength
      | cons first' rest' =>
          have hbounds := fun extreme => bounds_pick_of_subset extreme hnumbers hsubset
          constructor
          · intro low hlow
            obtain rfl : Scalar.least first rest = low := Option.some.inj hlow
            exact ⟨_, rfl, hbounds .least⟩
          · intro high hhigh
            obtain rfl : Scalar.greatest first rest = high := Option.some.inj hhigh
            exact ⟨_, rfl, hbounds .greatest⟩

/-- Numbers stay numbers as they arise. -/
theorem isNumber_keptAsItArises : KeptAsItArises (Scalar.IsNumber (R := R)) := by
  intro round process value hvalue
  rw [LawfulScalar.arise_of_isNumber round process hvalue]
  exact hvalue

/-- A round of rules that only select leaves no value but those before it, if they
are numbers. -/
theorem Experiment.Blends.after_subset (hblends : experiment.Blends .selection)
    {network : Network R} {round : Nat} {values : List R} {generator next : Generator}
    {step : Step R}
    (h : playRound experiment network tolerance round values generator = .ok (step, next))
    (hnumbers : ∀ value ∈ values, Scalar.IsNumber value) : ∀ value ∈ step.after, value ∈ values := by
  have harises : KeptAsItArises fun value : R => value ∈ values := by
    intro round process value hvalue
    rw [LawfulScalar.arise_of_isNumber round process (hnumbers value hvalue)]
    exact hvalue
  exact (hblends.round_stays (Blend.keeps_selection _) harises h fun _ h => h).after

/-- Rules that only select make no values, and never widen the range of those there
are.  Each value that a process holds or receives in any step of a finished run, the
one at the end included, is one of the initial values.  If these are numbers, the
least value never falls and the greatest never rises from one state to the next. -/
theorem selection_hands_on_initial_values [LastingScalar R] {finished : Run R}
    (hblends : experiment.Blends .selection)
    (hrun : run experiment seed tolerance = .ok finished) :
    (∀ step ∈ finished.steps, step.Stays (· ∈ finished.start)) ∧
    finished.states.length = experiment.rounds + 1 ∧
    ((∀ value ∈ finished.start, Scalar.IsNumber value) →
      ∀ k values next, finished.states[k]? = some values → finished.states[k + 1]? = some next →
        (∀ low, Scalar.least? values = some low →
          ∃ low', Scalar.least? next = some low' ∧ Scalar.le low low' = true) ∧
        ∀ high, Scalar.greatest? values = some high →
          ∃ high', Scalar.greatest? next = some high' ∧ Scalar.le high' high = true) := by
  obtain ⟨_, _, _, _, hstart, _⟩ := exists_playRounds_of_run hrun
  refine ⟨?_, (length_states_of_run hrun).2, ?_⟩
  · have harises : KeptAsItArises (· ∈ finished.start) := by
      intro round process value hvalue
      rw [arise_of_mem_start hstart hvalue round process]
      exact hvalue
    exact hblends.steps_stay (Blend.keeps_selection _) harises hrun fun _ h => h
  · intro hnumbers k values next hvalues hnext
    have hheld : ∀ value ∈ values, Scalar.IsNumber value :=
      hblends.inside_of_states (Blend.keeps_selection _) isNumber_keptAsItArises hrun hnumbers
        hvalues
    obtain ⟨step, hstep, rfl, rfl⟩ := exists_round_of_states hrun hvalues hnext
    obtain ⟨_, _, _, _, _, _, _, hround⟩ := exists_playRound_of_run hrun hstep
    exact range_of_subset hheld (playRound_eq_ok hround).2.2.2.2.1
      (hblends.after_subset hround hheld)

/-- Three processes, one of which sends nothing, take the least value after they
have heard from most, and otherwise the greater one of the first two if theirs is
not small; at the end they take a value that differs from their own. -/
def pickers : Experiment Value where
  name := "pickers"
  processes := 3
  rounds := 2
  p := Scalar.ofDraw (3 * 2 ^ 51)
  phases := [
    { kind := .eachRound
      rule := .choose .receivedMajority (.combine .min)
        (.onlyIf (.compare .gt .own (.literal (.ofReal 1.0)))
          (.assign (.plain "x") (.aggregateFrom .max [1, 2] true))) },
    { kind := .atEnd, rule := .ifDifferent (.aggregate .max false) .own }]
  leader := none
  parameters := []
  initial := .values [.ofReal 2.0, .ofReal 0.5, .ofReal 5.0]
  models := [{ kind := .standard }]
  channel := .guarantee .atLeastOne
  topology := some .complete
  faults := some (.composite [.byzantine [3] .silent, .crash (Scalar.ofDraw (2 ^ 51)) 2 4])

/-- The run completes, with the initial values alone, and its range never widens. -/
theorem pickers_hand_on_initial_values : ∃ finished : Run Value,
    pickers.Blends .selection ∧ run pickers 3 Scalar.zero = .ok finished ∧
    (∀ value ∈ finished.start, Scalar.IsNumber value) ∧
    (∀ step ∈ finished.steps, step.Stays (· ∈ finished.start)) ∧
    finished.states.length = 3 ∧
    ∀ k values next, finished.states[k]? = some values → finished.states[k + 1]? = some next →
      (∀ low, Scalar.least? values = some low →
        ∃ low', Scalar.least? next = some low' ∧ Scalar.le low low' = true) ∧
      ∀ high, Scalar.greatest? values = some high →
        ∃ high', Scalar.greatest? next = some high' ∧ Scalar.le high' high = true := by
  have hplays : (run pickers 3 Scalar.zero).isOk = true := by decide +kernel
  obtain ⟨finished, hrun⟩ := exists_eq_ok hplays
  obtain ⟨_, _, _, _, hvalues, _⟩ := exists_playRounds_of_run hrun
  have hstart : finished.start = [.ofReal 2.0, .ofReal 0.5, .ofReal 5.0] :=
    (Except.ok.inj hvalues).symm
  have hnumbers : ∀ value ∈ finished.start, Scalar.IsNumber value := by
    rw [hstart]
    simp only [List.forall_mem_cons, Scalar.IsNumber]
    decide +kernel
  have hblends : pickers.Blends .selection := by
    constructor
    · intro phase hphase
      simp only [pickers, List.mem_cons, List.not_mem_nil, or_false] at hphase
      rcases hphase with rfl | rfl <;> simp [Rule.BlendsBy, Expr.BlendsBy, Blend.selection]
    · rintro fault ⟨⟩
      refine .composite ?_
      intro model hmodel
      simp only [List.mem_cons, List.not_mem_nil, or_false] at hmodel
      rcases hmodel with rfl | rfl
      · exact .silent _
      · exact .crash _ _ _
  obtain ⟨hsteps, hlength, hrange⟩ := selection_hands_on_initial_values hblends hrun
  exact ⟨finished, hblends, hrun, hnumbers, hsteps, hlength, hrange hnumbers⟩

end LossyConsensus.Simulation
