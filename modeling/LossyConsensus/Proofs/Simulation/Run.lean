/-
# Rounds of a run

A run goes from the values before a round to those after it, and the inboxes of
every round that it reaches are as the network promises them.  This holds of
rounds in which a run stops without a result just as of those of a finished
run, whose trace shows the values before a round to be those after the one
before it.
-/

import LossyConsensus.Proofs.Simulation.Round

namespace LossyConsensus.Simulation

open LossyConsensus.Network LossyConsensus.Protocol LossyConsensus.Random

variable {R : Type} [Scalar R]

/-! ## Bound protocols -/

section Bound

variable {protocol : LossyConsensus.Protocol R} {p : R} {rounds : Int}
  {topology : Option (Topology R)} {faults : Option (Fault R)} {experiment : Experiment R}

/-- A protocol can be bound if it can be said who leads, the probability is one, and no
number of rounds is missing; all else is taken over. -/
theorem ofProtocol_eq_ok_iff :
    Experiment.ofProtocol protocol p rounds topology faults = .ok experiment ↔
      ∃ leader, Settings.leader protocol.settings = .ok leader ∧
        Scalar.isProbability p = true ∧ 0 ≤ rounds ∧
        { name := protocol.name, processes := protocol.processes, rounds := rounds.toNat, p,
          phases := protocol.phases, leader, parameters := Settings.numbers protocol.settings,
          initial := protocol.initial, models := protocol.models,
          channel := Settings.channel protocol.settings, topology, faults } = experiment := by
  rw [Experiment.ofProtocol, bind_eq_ok]
  simp only [mapError_eq_ok]
  refine exists_congr fun leader => and_congr_right fun _ => ?_
  cases Scalar.isProbability p with
  | false =>
      constructor
      · intro h
        cases h
      · rintro ⟨h, _⟩
        cases h
  | true =>
      by_cases hrounds : rounds < 0
      · refine ⟨fun h => ?_, fun h => absurd h.2.1 (not_le.mpr hrounds)⟩
        rw [if_pos hrounds] at h
        cases h
      · rw [if_neg hrounds]
        exact pure_eq_ok.trans ⟨fun h => ⟨rfl, not_lt.mp hrounds, h⟩, fun h => h.2.2⟩

/-- A protocol that is bound keeps its phases, its initial values and its parameters. -/
theorem ofProtocol_eq_ok
    (h : Experiment.ofProtocol protocol p rounds topology faults = .ok experiment) :
    experiment.phases = protocol.phases ∧ experiment.initial = protocol.initial ∧
      experiment.parameters = Settings.numbers protocol.settings ∧ experiment.p = p ∧
      experiment.rounds = rounds.toNat := by
  obtain ⟨leader, _, _, _, rfl⟩ := ofProtocol_eq_ok_iff.mp h
  exact ⟨rfl, rfl, rfl, rfl, rfl⟩

end Bound

/-! ## Reached states -/

/-- The values and the generator that a run has after a number of rounds. -/
inductive Reached (experiment : Experiment R) (seed : Int) (tolerance : R) (network : Network R) :
    Nat → List R → Generator → Prop
  | start {values : List R} {generator : Generator}
      (hgenerator : Generator.ofSeed seed = .ok generator)
      (hvalues : initialValues experiment = .ok values) :
      Reached experiment seed tolerance network 0 values generator
  | round {done : Nat} {values : List R} {generator next : Generator} {step : Step R}
      (hreached : Reached experiment seed tolerance network done values generator)
      (hround : playRound experiment network tolerance (done + 1) values generator =
        .ok (step, next)) :
      Reached experiment seed tolerance network (done + 1) step.after next

variable {experiment : Experiment R} {seed : Int} {tolerance : R} {network : Network R}

theorem length_initialValues {values : List R} (h : initialValues experiment = .ok values) :
    values.length = experiment.processes := by
  rw [← (mapM_eq_ok.mp h).length_eq, List.length_range]

theorem length_commit {round : Nat} {inboxes : Inboxes R} {values after : List R}
    {next : View R → Except EvalError R}
    (h : commit experiment round inboxes values next = .ok after) :
    after.length = values.length := by
  rw [← (mapM_eq_ok.mp h).length_eq, List.length_zipIdx]

/-- What a round does: the exchange of messages, and a step of every process. -/
theorem exists_of_playRound {round : Nat} {values : List R} {generator next : Generator}
    {step : Step R}
    (h : playRound experiment network tolerance round values generator = .ok (step, next)) :
    ∃ inboxes after, exchange experiment network values round generator = .ok (inboxes, next) ∧
      commit experiment round inboxes values
        (fun view => experiment.apply view round (isConsensus tolerance values)) = .ok after ∧
      step = { round, before := values, inboxes, after, delivered := inboxes.size } := by
  rw [playRound, bind_eq_ok] at h
  obtain ⟨⟨inboxes, drawn⟩, hexchange, h⟩ := h
  obtain ⟨after, hafter, h⟩ := bind_eq_ok.mp h
  obtain ⟨rfl, rfl⟩ := Prod.mk.inj (pure_eq_ok.mp h)
  exact ⟨inboxes, after, hexchange, hafter, rfl⟩

/-- What the phase at the end does: a step of every process. -/
theorem exists_of_playEnd {values : List R} {inboxes : Inboxes R} {step : Step R}
    (h : playEnd experiment values inboxes = .ok step) :
    ∃ after, commit experiment (experiment.rounds + 1) inboxes values experiment.applyEnd =
        .ok after ∧
      step = { round := experiment.rounds + 1, before := values, inboxes, after, delivered := 0,
               isEnd := true } := by
  rw [playEnd, bind_eq_ok] at h
  obtain ⟨after, hafter, h⟩ := h
  exact ⟨after, hafter, (pure_eq_ok.mp h).symm⟩

/-- Rounds are a first one, and the others from the values that it leaves. -/
theorem exists_of_playRounds {count round : Nat} {values : List R} {generator : Generator}
    {steps : List (Step R)}
    (h : playRounds experiment network tolerance (count + 1) round values generator = .ok steps) :
    ∃ first next rest,
      playRound experiment network tolerance round values generator = .ok (first, next) ∧
      playRounds experiment network tolerance count (round + 1) first.after next = .ok rest ∧
      steps = first :: rest := by
  rw [playRounds, bind_eq_ok] at h
  obtain ⟨⟨first, next⟩, hround, h⟩ := h
  obtain ⟨rest, hrest, h⟩ := bind_eq_ok.mp h
  exact ⟨first, next, rest, hround, hrest, (pure_eq_ok.mp h).symm⟩

/-- What a round records: the inboxes of the exchange, and the values before and
after it. -/
theorem playRound_eq_ok {round : Nat} {values : List R} {generator next : Generator}
    {step : Step R}
    (h : playRound experiment network tolerance round values generator = .ok (step, next)) :
    step.round = round ∧ step.before = values ∧ step.isEnd = false ∧
      step.delivered = step.inboxes.size ∧ step.after.length = values.length ∧
      exchange experiment network values round generator = .ok (step.inboxes, next) := by
  obtain ⟨inboxes, after, hexchange, hafter, rfl⟩ := exists_of_playRound h
  exact ⟨rfl, rfl, rfl, rfl, length_commit hafter, hexchange⟩

theorem isEnd_of_playEnd {values : List R} {inboxes : Inboxes R} {step : Step R}
    (h : playEnd experiment values inboxes = .ok step) : step.isEnd = true := by
  obtain ⟨_, _, rfl⟩ := exists_of_playEnd h
  rfl

/-- A run keeps one value for each process. -/
theorem Reached.length_eq {done : Nat} {values : List R} {generator : Generator}
    (hreached : Reached experiment seed tolerance network done values generator) :
    values.length = experiment.processes := by
  induction hreached with
  | start _ hvalues => exact length_initialValues hvalues
  | round _ hround ih =>
      obtain ⟨_, _, _, _, hlength, _⟩ := playRound_eq_ok hround
      exact hlength.trans ih

/-! ## Whole runs -/

/-- Rounds played one after the other: each starts in a reached state, with the
values that the round before it has left. -/
theorem reached_of_playRounds {count done : Nat} {values : List R} {generator : Generator}
    {steps : List (Step R)}
    (hreached : Reached experiment seed tolerance network done values generator)
    (h : playRounds experiment network tolerance count (done + 1) values generator = .ok steps) :
    steps.length = count ∧ ∀ k step, steps[k]? = some step →
      (values :: steps.map (·.after))[k]? = some step.before ∧
        ∃ drawn next, Reached experiment seed tolerance network (done + k) step.before drawn ∧
          playRound experiment network tolerance (done + k + 1) step.before drawn =
            .ok (step, next) := by
  induction count generalizing done values generator steps with
  | zero =>
      cases h
      refine ⟨rfl, ?_⟩
      intro k step hstep
      cases hstep
  | succ count ih =>
      obtain ⟨first, drawn, rest, hround, hrest, rfl⟩ := exists_of_playRounds h
      obtain ⟨_, hbefore, _⟩ := playRound_eq_ok hround
      obtain ⟨hlength, hsteps⟩ := ih (hreached.round hround) hrest
      refine ⟨by rw [List.length_cons, hlength], ?_⟩
      intro k step hstep
      cases k with
      | zero =>
          obtain rfl : first = step := by simpa using hstep
          rw [hbefore]
          exact ⟨rfl, generator, drawn, hreached, hround⟩
      | succ k =>
          obtain ⟨hvalues, hplayed⟩ := hsteps k step hstep
          refine ⟨hvalues, ?_⟩
          rw [← Nat.succ_add_eq_add_succ]
          exact hplayed

/-- A finished run has played its rounds from its initial values, and after them
the phase at the end if there is one. -/
theorem exists_of_run {finished : Run R} (h : run experiment seed tolerance = .ok finished) :
    ∃ network generator, Network.ofExperiment experiment = .ok network ∧
      Generator.ofSeed seed = .ok generator ∧ initialValues experiment = .ok finished.start ∧
      playRounds experiment network tolerance experiment.rounds 1 finished.start generator =
        .ok finished.rounds ∧
      ((experiment.hasEnd = false ∧ finished.steps = finished.rounds) ∨
        experiment.hasEnd = true ∧ ∃ last, finished.steps = finished.rounds ++ [last] ∧
          playEnd experiment (valuesAfter finished.start finished.rounds)
            ((finished.rounds.getLast?.map (·.inboxes)).getD
              (Inboxes.empty experiment.processes)) = .ok last) := by
  rw [run, bind_eq_ok] at h
  obtain ⟨generator, hgenerator, h⟩ := h
  obtain ⟨network, hnetwork, h⟩ := bind_eq_ok.mp h
  obtain ⟨start, hstart, h⟩ := bind_eq_ok.mp h
  obtain ⟨rounds, hrounds, h⟩ := bind_eq_ok.mp h
  have hreached : Reached experiment seed tolerance network 0 start generator :=
    .start (mapError_eq_ok.mp hgenerator) hstart
  obtain ⟨_, hsteps⟩ := reached_of_playRounds hreached hrounds
  have hkept : rounds.filter (fun step => !step.isEnd) = rounds := by
    rw [List.filter_eq_self]
    intro step hmem
    obtain ⟨k, hk⟩ := List.mem_iff_getElem?.mp hmem
    obtain ⟨_, _, _, _, hround⟩ := hsteps k step hk
    rw [(playRound_eq_ok hround).2.2.1]
    rfl
  refine ⟨network, generator, hnetwork, mapError_eq_ok.mp hgenerator, ?_⟩
  split at h
  · next hend =>
    obtain ⟨last, hlast, h⟩ := bind_eq_ok.mp h
    obtain rfl := pure_eq_ok.mp h
    have hskip : [last].filter (fun step => !step.isEnd) = [] := by
      rw [List.filter_singleton, isEnd_of_playEnd hlast]
      rfl
    have hall : Run.rounds ⟨start, rounds ++ [last]⟩ = rounds := by
      rw [Run.rounds, List.filter_append, hkept, hskip, List.append_nil]
    rw [hall]
    exact ⟨hstart, hrounds, .inr ⟨hend, last, rfl, hlast⟩⟩
  · next hend =>
    obtain rfl := pure_eq_ok.mp h
    have hall : Run.rounds ⟨start, rounds⟩ = rounds := hkept
    rw [hall]
    exact ⟨hstart, hrounds, .inl ⟨Bool.eq_false_iff.mpr hend, rfl⟩⟩

theorem exists_playRounds_of_run {finished : Run R}
    (h : run experiment seed tolerance = .ok finished) :
    ∃ network generator, Network.ofExperiment experiment = .ok network ∧
      Generator.ofSeed seed = .ok generator ∧ initialValues experiment = .ok finished.start ∧
      playRounds experiment network tolerance experiment.rounds 1 finished.start generator =
        .ok finished.rounds ∧
      finished.steps.length = finished.rounds.length + if experiment.hasEnd then 1 else 0 := by
  obtain ⟨network, generator, hnetwork, hgenerator, hstart, hrounds, hsteps⟩ := exists_of_run h
  refine ⟨network, generator, hnetwork, hgenerator, hstart, hrounds, ?_⟩
  rcases hsteps with ⟨hend, hsteps⟩ | ⟨hend, last, hsteps, _⟩
  · rw [hsteps, hend]
    rfl
  · rw [hsteps, hend, List.length_append]
    rfl

/-- The discrepancies that a finished run records are as many as its experiment
promises. -/
theorem length_discrepancies_of_run {finished : Run R}
    (h : run experiment seed tolerance = .ok finished) :
    (finished.summary tolerance).discrepancies.length = experiment.traceLength := by
  obtain ⟨network, generator, _, hgenerator, hstart, hrounds, hlength⟩ :=
    exists_playRounds_of_run h
  have hreached : Reached experiment seed tolerance network 0 finished.start generator :=
    .start hgenerator hstart
  obtain ⟨hcount, _⟩ := reached_of_playRounds hreached hrounds
  rw [Run.summary, List.length_cons, List.length_map, hlength, hcount, Experiment.traceLength]
  omega

/-! ## Inboxes of all rounds -/

/-- The inboxes of every round that a run reaches are as the network promises
them. -/
theorem Reached.faithful (hnetwork : Network.ofExperiment experiment = .ok network)
    {done : Nat} {values : List R} {generator next : Generator} {inboxes : Inboxes R}
    (hreached : Reached experiment seed tolerance network done values generator)
    (hexchange : exchange experiment network values ((done + 1 : Nat) : Int) generator =
      .ok (inboxes, next)) :
    Faithful experiment values ((done + 1 : Nat) : Int) inboxes :=
  faithful_of_exchange hnetwork hreached.length_eq hexchange

/-- What a process finds in its inbox, in every round of every run.  An inbox
holds at most one message from each other process; each goes back to the only
message between the two in the flood of values from before the round, which no
topology and no part of the faults holds back; and the messages counted in a
round are those in the inboxes, at most one for each two processes.  This holds
in every round that a run reaches, and in each round of a finished run. -/
theorem inboxes_faithful_in_every_round (experiment : Experiment R) (seed : Int) (tolerance : R) :
    (∀ network, Network.ofExperiment experiment = .ok network →
      ∀ done values generator,
        Reached experiment seed tolerance network done values generator →
          ∀ inboxes next,
            exchange experiment network values ((done + 1 : Nat) : Int) generator =
              .ok (inboxes, next) →
            Faithful experiment values ((done + 1 : Nat) : Int) inboxes) ∧
    ∀ finished, run experiment seed tolerance = .ok finished →
      finished.rounds.length = experiment.rounds ∧
      ∀ k step, finished.rounds[k]? = some step →
        (finished.start :: finished.rounds.map (·.after))[k]? = some step.before ∧
        Faithful experiment step.before ((k + 1 : Nat) : Int) step.inboxes ∧
        (finished.summary tolerance).deliveredPerRound[k]? =
          some ((processIds experiment.processes).map fun id =>
            (step.inboxes.get id).length).sum ∧
        ((processIds experiment.processes).map fun id => (step.inboxes.get id).length).sum ≤
          experiment.processes * (experiment.processes - 1) := by
  refine ⟨?_, ?_⟩
  · intro network hnetwork done values generator hreached inboxes next hexchange
    exact hreached.faithful hnetwork hexchange
  · intro finished hrun
    obtain ⟨network, generator, hnetwork, hgenerator, hstart, hrounds, _⟩ :=
      exists_playRounds_of_run hrun
    have hreached : Reached experiment seed tolerance network 0 finished.start generator :=
      .start hgenerator hstart
    obtain ⟨hlength, hsteps⟩ := reached_of_playRounds hreached hrounds
    refine ⟨hlength, ?_⟩
    intro k step hstep
    obtain ⟨hbefore, drawn, next, hround, hplayed⟩ := hsteps k step hstep
    rw [Nat.zero_add] at hround hplayed
    obtain ⟨_, _, _, hdelivered, _, hexchange⟩ := playRound_eq_ok hplayed
    have hfaithful := hround.faithful hnetwork hexchange
    refine ⟨hbefore, hfaithful, ?_, ?_⟩
    · rw [Run.summary, List.getElem?_map, hstep, Option.map_some, hdelivered,
        hfaithful.size_eq_sum]
    · rw [← hfaithful.size_eq_sum]
      exact hfaithful.size_le

/-- Three processes on a ring, each of which takes the average of what it has
received, while the second one lies and the third one is cut off from the second
round on. -/
def ringOfThree : Experiment Float where
  name := "ring of three"
  processes := 3
  rounds := 2
  p := Scalar.ofDraw (2 ^ 52)
  phases := [{ kind := .eachRound, rule := .combine .average }]
  leader := none
  parameters := []
  initial := .rule (.parameter "i")
  models := [{ kind := .standard }, { kind := .broadcast, process := some 2 }]
  channel := .guarantee .majority
  topology := some .ring
  faults := some (.composite [.byzantine [2] .opposite, .partition 2 0 [[1, 2], [3]]])

/-- The inboxes of both rounds of the ring: those of the first one, which the run
reaches at its start, and those that the finished run records. -/
theorem inboxes_faithful_in_ringOfThree :
    (∃ network values generator inboxes next, Network.ofExperiment ringOfThree = .ok network ∧
      Reached ringOfThree 7 Scalar.zero network 0 values generator ∧
      exchange ringOfThree network values ((0 + 1 : Nat) : Int) generator = .ok (inboxes, next) ∧
      Faithful ringOfThree values ((0 + 1 : Nat) : Int) inboxes) ∧
    ∃ finished, run ringOfThree 7 Scalar.zero = .ok finished ∧ finished.rounds.length = 2 ∧
      ∀ k step, finished.rounds[k]? = some step →
        Faithful ringOfThree step.before ((k + 1 : Nat) : Int) step.inboxes := by
  have hplays : (run ringOfThree 7 Scalar.zero).isOk = true := by decide +kernel
  obtain ⟨finished, hrun⟩ := exists_eq_ok hplays
  obtain ⟨network, generator, hnetwork, hgenerator, hstart, hrounds, _⟩ :=
    exists_playRounds_of_run hrun
  have hreached : Reached ringOfThree 7 Scalar.zero network 0 finished.start generator :=
    .start hgenerator hstart
  obtain ⟨hreaches, hfinishes⟩ := inboxes_faithful_in_every_round ringOfThree 7 Scalar.zero
  obtain ⟨hlength, hsteps⟩ := hfinishes finished hrun
  refine ⟨?_, finished, hrun, hlength, fun k step hstep => (hsteps k step hstep).2.1⟩
  rw [show ringOfThree.rounds = 1 + 1 from rfl, playRounds, bind_eq_ok] at hrounds
  obtain ⟨⟨step, next⟩, hround, _⟩ := hrounds
  obtain ⟨_, _, _, _, _, hexchange⟩ := playRound_eq_ok hround
  exact ⟨network, finished.start, generator, step.inboxes, next, hnetwork, hreached, hexchange,
    hreaches network hnetwork 0 finished.start generator hreached step.inboxes next hexchange⟩

end LossyConsensus.Simulation
