/-
# Flooding

A protocol in which every process takes the least of all values it knows, round
by round, or the greatest one.  When nothing is lost, every round spreads what is
known by one edge: after some rounds a process holds the least value of those
that so many edges lead from.
-/

import LossyConsensus.Proofs.Network.Certain
import LossyConsensus.Proofs.Network.Topology
import LossyConsensus.Proofs.Protocol.Extreme
import LossyConsensus.Proofs.Simulation.Run

namespace LossyConsensus.Simulation

open LossyConsensus.Network LossyConsensus.Protocol LossyConsensus.Random

variable {R : Type} [Scalar R]

/-- An experiment that floods an extreme value over a topology: nothing is lost or
made up for, and the only phase takes in each round the extreme of all values
that a process knows. -/
structure Floods (extreme : Extreme) (topology : Topology R) (values : List R)
    (experiment : Experiment R) : Prop where
  processes : experiment.processes = values.length
  initial : experiment.initial = .values values
  phases : ∃ target after, experiment.phases =
    [{ kind := .eachRound, rule := .assign target (.aggregate extreme.aggregation true), after }]
  certain : experiment.p = Scalar.ofNat 1
  channel : experiment.channel = .guarantee .none
  topology : experiment.topology = some topology
  faults : experiment.faults = none ∨ experiment.faults = some .none
  models : ∃ assignment, Assignment.ofSpecs experiment.models experiment.processes = .ok assignment

/-- An experiment whose only phase takes in each round the extreme of all values that a
process knows. -/
def Experiment.TakesExtreme (extreme : Extreme) (experiment : Experiment R) : Prop :=
  ∃ target after, experiment.phases =
    [{ kind := .eachRound, rule := .assign target (.aggregate extreme.aggregation true), after }]

theorem Floods.takes {extreme : Extreme} {topology : Topology R} {values : List R}
    {experiment : Experiment R} (hfloods : Floods extreme topology values experiment) :
    experiment.TakesExtreme extreme :=
  hfloods.phases

/-- The values at the start of a run and after each of its rounds. -/
def Run.states (finished : Run R) : List (List R) :=
  finished.start :: finished.rounds.map (·.after)

/-- The value of a process. -/
def valueOf (values : List R) (id : Int) : Option R :=
  values[(id - 1).toNat]?

/-- What processes know after some steps: each holds the value of a process within
so many edges of it, and no such process has one further out. -/
def Knows (extreme : Extreme) (edge : Int → Int → Prop) (values : List R) (steps : Nat)
    (held : List R) : Prop :=
  held.length = values.length ∧ ∀ id ∈ processIds values.length, ∃ own, valueOf held id = some own ∧
    (∃ source ∈ processIds values.length, Within edge steps source id ∧
      valueOf values source = some own) ∧
    ∀ source ∈ processIds values.length, Within edge steps source id →
      ∀ other, valueOf values source = some other → extreme.bounds own other = true

variable {extreme : Extreme} {topology : Topology R} {values held : List R}
  {experiment : Experiment R} {network : Network R}

/-! ## Values of processes -/

omit [Scalar R] in
theorem exists_valueOf {id : Int} (h : id ∈ processIds values.length) :
    ∃ value, valueOf values id = some value := by
  rw [mem_processIds] at h
  exact ⟨_, List.getElem?_eq_getElem (by omega)⟩

omit [Scalar R] in
theorem mem_of_valueOf {id : Int} {value : R} (h : valueOf values id = some value) :
    value ∈ values :=
  List.mem_of_getElem? h

omit [Scalar R] in
theorem exists_valueOf_of_mem {value : R} (h : value ∈ values) :
    ∃ id ∈ processIds values.length, valueOf values id = some value := by
  obtain ⟨index, hlt, rfl⟩ := List.mem_iff_getElem.mp h
  refine ⟨index + 1, mem_processIds.mpr (by omega), ?_⟩
  rw [valueOf, show ((index : Int) + 1 - 1).toNat = index by omega]
  exact List.getElem?_eq_getElem hlt

/-! ## One round -/

/-- The network of a flooding experiment connects whom its topology links. -/
theorem connects_iff (htopology : experiment.topology = some topology)
    (hnetwork : Network.ofExperiment experiment = .ok network) {message : Message R}
    (hsender : message.sender ∈ processIds experiment.processes) :
    network.connects message = true ↔
      topology.Edge experiment.processes message.sender message.receiver := by
  obtain ⟨ids, hids, hsame⟩ := exists_neighbors_of_ofExperiment hnetwork htopology hsender
  rw [Topology.edge_iff hids, hsame]
  exact List.contains_iff_mem

theorem Floods.exists_network (hfloods : Floods extreme topology values experiment)
    (hfits : topology.Fits values.length) :
    ∃ network, Network.ofExperiment experiment = .ok network := by
  obtain ⟨assignment, hassignment⟩ := hfloods.models
  have hlisted : ∃ table, ((processIds experiment.processes).mapM fun id => do
      let ids ← (topology.neighbors id experiment.processes).mapError RunError.topology
      return (id, ids)) = .ok table := by
    refine exists_mapM_eq_ok fun id hid => ?_
    rw [hfloods.processes] at hid ⊢
    obtain ⟨ids, hids⟩ := hfits id hid
    exact ⟨(id, ids), bind_eq_ok.mpr ⟨ids, mapError_eq_ok.mpr hids, rfl⟩⟩
  obtain ⟨table, htable⟩ := hlisted
  refine ⟨⟨assignment, some table⟩, bind_eq_ok.mpr ⟨assignment, mapError_eq_ok.mpr hassignment,
    bind_eq_ok.mpr ⟨some table, ?_, rfl⟩⟩⟩
  rw [hfloods.topology, Option.mapM_some]
  exact bind_eq_ok.mpr ⟨table, htable, rfl⟩

/-- What a process takes in a round: the extreme of all values it knows. -/
theorem Experiment.TakesExtreme.apply_eq (htakes : experiment.TakesExtreme extreme) (view : View R)
    (round : Int) (consensus : Bool) :
    experiment.apply view round consensus = .ok (extreme.pick view.own view.received) := by
  obtain ⟨target, after, hphases⟩ := htakes
  have heval : (Expr.aggregate extreme.aggregation true).eval view =
      .ok (extreme.pick view.own view.received) := extreme.apply_aggregation _ _
  rw [Experiment.apply, Experiment.roundPhases, hphases]
  exact bind_eq_ok.mpr ⟨_, heval, rfl⟩

theorem Experiment.TakesExtreme.commit_eq (htakes : experiment.TakesExtreme extreme) (round : Nat)
    (inboxes : Inboxes R) (held : List R) (consensus : Bool) :
    commit experiment round inboxes held (fun view => experiment.apply view round consensus) =
      .ok ((held.zipIdx 1).map fun (own, id) => Scalar.arise round id
        (extreme.pick own ((inboxes.get id).map (·.payload)))) := by
  refine mapM_eq_ok_map fun (own, id) _ => ?_
  have hreceived : (experiment.view id own (packed (inboxes.get id))).received =
      (inboxes.get id).map (·.payload) := List.map_map
  refine bind_eq_ok.mpr ⟨_, mapError_eq_ok.mpr (htakes.apply_eq _ _ _), ?_⟩
  rw [hreceived]
  rfl

omit [Scalar R] in
theorem Experiment.TakesExtreme.hasEnd_eq (htakes : experiment.TakesExtreme extreme) :
    experiment.hasEnd = false := by
  obtain ⟨target, after, hphases⟩ := htakes
  rw [Experiment.hasEnd, hphases]
  rfl

variable [LawfulScalar R]

/-- In a round of a flooding experiment the inbox of a process holds what it is
sent. -/
theorem Floods.exists_exchange (hfloods : Floods extreme topology values experiment)
    (network : Network R) (held : List R) (round : Int) (generator : Generator) :
    ∃ inboxes next, exchange experiment network held round generator = .ok (inboxes, next) ∧
      ∀ id message, message ∈ inboxes.get id ↔
        (message ∈ flood held ∧ network.connects message = true) ∧ message.receiver = id := by
  let outbound := (flood held).filter network.connects
  let outcome := deliver network.assignment experiment.p outbound generator
  let filled := Inboxes.ofDelivered experiment.processes outcome.1.delivered
  refine ⟨filled, outcome.2, ?_, ?_⟩
  · refine bind_eq_ok.mpr ⟨outbound, sent_eq_of_faultless hfloods.faults network held round, ?_⟩
    refine bind_eq_ok.mpr ⟨filled, ?_, rfl⟩
    rw [enforce, hfloods.channel]
    rfl
  · intro id message
    have hperm : outcome.1.delivered.Perm outbound := by
      simp only [outcome, hfloods.certain]
      exact deliver_one_perm _ _ _
    rw [Inboxes.get_ofDelivered, mem_addressedTo, hperm.mem_iff, List.mem_filter]

omit [LawfulScalar R] in
/-- What a process receives are the values of the processes that an edge leads
from. -/
theorem mem_received_iff (htopology : experiment.topology = some topology)
    (hprocesses : experiment.processes = values.length)
    (hnetwork : Network.ofExperiment experiment = .ok network)
    (hlength : held.length = values.length) {inboxes : Inboxes R} {id : Int}
    (hinbox : ∀ message, message ∈ inboxes.get id ↔
      (message ∈ flood held ∧ network.connects message = true) ∧ message.receiver = id)
    (hid : id ∈ processIds values.length) (value : R) :
    value ∈ (inboxes.get id).map (·.payload) ↔ ∃ sender ∈ processIds values.length,
      sender ≠ id ∧ topology.Edge values.length sender id ∧ valueOf held sender = some value := by
  rw [List.mem_map]
  constructor
  · rintro ⟨message, hmessage, rfl⟩
    obtain ⟨⟨hflood, hconnects⟩, rfl⟩ := (hinbox message).mp hmessage
    have hsender := sender_mem_processIds_of_mem_flood hflood
    obtain ⟨_, hvalue, _, hne⟩ := mem_flood.mp hflood
    rw [hlength] at hsender
    refine ⟨message.sender, hsender, hne.symm, ?_, hvalue⟩
    rw [← hprocesses] at hsender ⊢
    exact (connects_iff htopology hnetwork hsender).mp hconnects
  · rintro ⟨sender, hsender, hne, hedge, hvalue⟩
    have hbounds := mem_processIds.mp hsender
    refine ⟨⟨sender, id, value⟩, (hinbox _).mpr ⟨⟨mem_flood.mpr ⟨hbounds.1, hvalue, ?_, hne.symm⟩,
      ?_⟩, rfl⟩, rfl⟩
    · rw [hlength]
      exact hid
    · rw [← hprocesses] at hsender hedge
      exact (connects_iff htopology hnetwork hsender).mpr hedge

omit [Scalar R] [LawfulScalar R] in
theorem valueOf_map_zipIdx (change : R × Nat → R) {id : Int} (hid : id ∈ processIds held.length)
    {own : R} (hown : valueOf held id = some own) :
    valueOf ((held.zipIdx 1).map change) id = some (change (own, id.toNat)) := by
  have hbounds := mem_processIds.mp hid
  rw [valueOf] at hown ⊢
  rw [List.getElem?_map, List.getElem?_zipIdx, hown]
  change some (change (own, 1 + (id - 1).toNat)) = _
  rw [show 1 + (id - 1).toNat = id.toNat by omega]

/-- What a process knows after some steps: the value of a process within so many
edges of it, no such process having one further out. -/
structure IsKnown (extreme : Extreme) (edge : Int → Int → Prop) (values : List R) (steps : Nat)
    (id : Int) (own : R) : Prop where
  arrives : ∃ source ∈ processIds values.length, Within edge steps source id ∧
    valueOf values source = some own
  bounds : ∀ source ∈ processIds values.length, Within edge steps source id →
    ∀ other, valueOf values source = some other → extreme.bounds own other = true

omit [LawfulScalar R] in
theorem IsKnown.mem {edge : Int → Int → Prop} {steps : Nat} {id : Int} {own : R}
    (h : IsKnown extreme edge values steps id own) : own ∈ values := by
  obtain ⟨_, _, _, hvalue⟩ := h.arrives
  exact mem_of_valueOf hvalue

omit [LawfulScalar R] in
theorem Knows.exists_isKnown {edge : Int → Int → Prop} {steps : Nat}
    (hknows : Knows extreme edge values steps held) {id : Int}
    (hid : id ∈ processIds values.length) :
    ∃ own, valueOf held id = some own ∧ IsKnown extreme edge values steps id own := by
  obtain ⟨own, hown, harrives, hbounds⟩ := hknows.2 id hid
  exact ⟨own, hown, harrives, hbounds⟩

omit [LawfulScalar R] in
theorem Knows.isKnown {edge : Int → Int → Prop} {steps : Nat}
    (hknows : Knows extreme edge values steps held) {id : Int}
    (hid : id ∈ processIds values.length) {own : R} (hown : valueOf held id = some own) :
    IsKnown extreme edge values steps id own := by
  obtain ⟨own', hown', hknown⟩ := hknows.exists_isKnown hid
  obtain rfl := Option.some.inj (hown.symm.trans hown')
  exact hknown

/-- The extreme of what a process holds and of what those hold that an edge leads
from is what it knows one step later. -/
theorem Knows.isKnown_pick {edge : Int → Int → Prop} {steps : Nat}
    (hknows : Knows extreme edge values steps held)
    (hvalues : ∀ value ∈ values, Scalar.IsNumber value) {id : Int} {own : R} {received : List R}
    (hown : IsKnown extreme edge values steps id own)
    (hreceived : ∀ value, value ∈ received ↔ ∃ sender ∈ processIds values.length,
      sender ≠ id ∧ edge sender id ∧ valueOf held sender = some value)
    (hlasts : ∀ source ∈ processIds values.length, ∀ last, Within edge steps source last →
      last ∈ processIds values.length) :
    IsKnown extreme edge values (steps + 1) id (extreme.pick own received) := by
  have hnumbers : ∀ value ∈ received, Scalar.IsNumber value := by
    intro value hmem
    obtain ⟨sender, hsender, _, _, hheld⟩ := (hreceived value).mp hmem
    exact hvalues value (hknows.isKnown hsender hheld).mem
  obtain ⟨hmem, hextreme⟩ := extreme.attained_pick (hvalues own hown.mem) hnumbers
  constructor
  case arrives =>
    rcases List.mem_cons.mp hmem with heq | hmem
    · obtain ⟨source, hsource, hwalk, hvalue⟩ := hown.arrives
      rw [heq]
      exact ⟨source, hsource, hwalk.mono (Nat.le_succ steps), hvalue⟩
    · obtain ⟨sender, hsender, _, hedge, hheld⟩ := (hreceived _).mp hmem
      obtain ⟨source, hsource, hwalk, hvalue⟩ := (hknows.isKnown hsender hheld).arrives
      exact ⟨source, hsource, .step hwalk hedge, hvalue⟩
  case bounds =>
    intro source hsource hreach value hvalue
    -- The walk ends with the process itself or with an edge from another one.
    rcases within_succ_iff.mp hreach with hnear | ⟨last, hnear, hedge⟩
    · exact Extreme.bounds_trans (hextreme own List.mem_cons_self)
        (hown.bounds source hsource hnear value hvalue)
    · by_cases hself : last = id
      · exact Extreme.bounds_trans (hextreme own List.mem_cons_self)
          (hown.bounds source hsource (hself ▸ hnear) value hvalue)
      · have hlast := hlasts source hsource last hnear
        obtain ⟨known, hheld, hknown⟩ := hknows.exists_isKnown hlast
        have hmem := (hreceived known).mpr ⟨last, hlast, hself, hedge, hheld⟩
        exact Extreme.bounds_trans (hextreme known (List.mem_cons_of_mem _ hmem))
          (hknown.bounds source hsource hnear value hvalue)

/-- One round spreads what is known by one edge. -/
theorem Floods.exists_playRound (hfloods : Floods extreme topology values experiment)
    (hinhabits : Inhabits (fun node => topology.neighbors node values.length) values.length)
    (hvalues : ∀ value ∈ values, Scalar.IsNumber value)
    (hnetwork : Network.ofExperiment experiment = .ok network) {steps : Nat}
    (hknows : Knows extreme (topology.Edge values.length) values steps held) (tolerance : R)
    (round : Nat) (generator : Generator) :
    ∃ step next, playRound experiment network tolerance round held generator = .ok (step, next) ∧
      Knows extreme (topology.Edge values.length) values (steps + 1) step.after := by
  obtain ⟨inboxes, next, hexchange, hinbox⟩ :=
    hfloods.exists_exchange network held round generator
  have hcommit := hfloods.takes.commit_eq round inboxes held (isConsensus tolerance held)
  refine ⟨_, next, bind_eq_ok.mpr ⟨_, hexchange, bind_eq_ok.mpr ⟨_, hcommit, rfl⟩⟩, ?_, ?_⟩
  · rw [List.length_map, List.length_zipIdx, hknows.1]
  · intro id hid
    obtain ⟨own, hown, hknown⟩ := hknows.exists_isKnown hid
    have hreceived := mem_received_iff hfloods.topology hfloods.processes hnetwork hknows.1
      (hinbox id) hid
    have htaken := hknows.isKnown_pick hvalues hknown hreceived
      fun _ hsource _ hwalk => hinhabits.mem_of_within hsource hwalk
    refine ⟨extreme.pick own ((inboxes.get id).map (·.payload)), ?_, htaken.arrives,
      htaken.bounds⟩
    have hidHeld : id ∈ processIds held.length := by
      rw [hknows.1]
      exact hid
    have hat : ((id.toNat : Nat) : Int) = id := by
      have := (mem_processIds.mp hid).1
      omega
    rw [valueOf_map_zipIdx _ hidHeld hown]
    simp only [hat]
    exact congrArg some (LawfulScalar.arise_of_isNumber round id (hvalues _ htaken.mem))

/-! ## Whole runs -/

theorem Floods.initialValues_eq (hfloods : Floods extreme topology values experiment)
    (hvalues : ∀ value ∈ values, Scalar.IsNumber value) :
    initialValues experiment = .ok values := by
  have hmap : initialValues experiment =
      .ok ((List.range experiment.processes).map fun (k : Nat) =>
        Scalar.arise 0 ((k : Int) + 1) (values.getD k Scalar.zero)) := by
    refine mapM_eq_ok_map fun k _ => bind_eq_ok.mpr ⟨_, mapError_eq_ok.mpr ?_, rfl⟩
    rw [Experiment.initialValue, hfloods.initial, Nat.add_sub_cancel]
  rw [hmap, hfloods.processes]
  refine congrArg Except.ok (List.ext_getElem (by simp) ?_)
  intro k hk hk'
  rw [List.getElem_map, List.getElem_range, List.getD_eq_getElem?_getD,
    List.getElem?_eq_getElem hk', Option.getD_some]
  exact LawfulScalar.arise_of_isNumber _ _ (hvalues _ (List.getElem_mem hk'))

/-- At the start every process knows its own value. -/
theorem knows_start (edge : Int → Int → Prop) (hvalues : ∀ value ∈ values, Scalar.IsNumber value) :
    Knows extreme edge values 0 values := by
  refine ⟨rfl, fun id hid => ?_⟩
  obtain ⟨own, hown⟩ := exists_valueOf hid
  refine ⟨own, hown, ⟨id, hid, .here 0 id, hown⟩, ?_⟩
  intro source _ hwalk other hother
  obtain rfl := within_zero_iff.mp hwalk
  obtain rfl := Option.some.inj (hown.symm.trans hother)
  exact extreme.bounds_refl (hvalues own (mem_of_valueOf hown))

/-- Every further round spreads what is known by a further edge. -/
theorem Floods.exists_playRounds (hfloods : Floods extreme topology values experiment)
    (hinhabits : Inhabits (fun node => topology.neighbors node values.length) values.length)
    (hvalues : ∀ value ∈ values, Scalar.IsNumber value)
    (hnetwork : Network.ofExperiment experiment = .ok network) (tolerance : R) (count : Nat)
    {done : Nat} (hknows : Knows extreme (topology.Edge values.length) values done held)
    (round : Nat) (generator : Generator) :
    ∃ steps, playRounds experiment network tolerance count round held generator = .ok steps ∧
      steps.length = count ∧ ∀ further later, (held :: steps.map (·.after))[further]? = some later →
        Knows extreme (topology.Edge values.length) values (done + further) later := by
  induction count generalizing done held round generator with
  | zero =>
      refine ⟨[], rfl, rfl, ?_⟩
      intro further later hlater
      cases further with
      | zero => cases hlater; exact hknows
      | succ further => cases hlater
  | succ count ih =>
      obtain ⟨step, next, hround, hstep⟩ := hfloods.exists_playRound hinhabits hvalues hnetwork
        hknows tolerance round generator
      obtain ⟨steps, hrest, hlength, hsteps⟩ := ih hstep (round + 1) next
      refine ⟨step :: steps, ?_, by rw [List.length_cons, hlength], ?_⟩
      · exact bind_eq_ok.mpr ⟨(step, next), hround, bind_eq_ok.mpr ⟨steps, hrest, rfl⟩⟩
      · intro further later hlater
        cases further with
        | zero => cases hlater; exact hknows
        | succ further =>
            rw [← Nat.succ_add_eq_add_succ]
            exact hsteps further later hlater

/-- A flooding experiment runs to its end, and after each of its rounds every
process knows what so many edges bring to it. -/
theorem Floods.exists_run (hfloods : Floods extreme topology values experiment)
    (hinhabits : Inhabits (fun node => topology.neighbors node values.length) values.length)
    (hvalues : ∀ value ∈ values, Scalar.IsNumber value) {seed : Int} (hseed : 0 ≤ seed)
    (tolerance : R) :
    ∃ finished, run experiment seed tolerance = .ok finished ∧
      finished.states.length = experiment.rounds + 1 ∧ finished.steps = finished.rounds ∧
      ∀ done held, finished.states[done]? = some held →
        Knows extreme (topology.Edge values.length) values done held := by
  obtain ⟨network, hnetwork⟩ := hfloods.exists_network fun node hnode => by
    obtain ⟨ids, hids, _⟩ := hinhabits node hnode
    exact ⟨ids, hids⟩
  have hgenerator : Generator.ofSeed seed =
      .ok (Generator.ofEntropy ([seed].flatMap fun seed => words seed.toNat)) :=
    if_neg (by simpa using hseed)
  have hstart := hfloods.initialValues_eq hvalues
  obtain ⟨steps, hrounds, hlength, hknows⟩ := hfloods.exists_playRounds hinhabits hvalues hnetwork
    tolerance experiment.rounds (knows_start _ hvalues) 1
    (Generator.ofEntropy ([seed].flatMap fun seed => words seed.toNat))
  have hend := hfloods.takes.hasEnd_eq
  have hrun : run experiment seed tolerance = .ok ⟨values, steps⟩ := by
    refine bind_eq_ok.mpr ⟨_, mapError_eq_ok.mpr hgenerator, ?_⟩
    refine bind_eq_ok.mpr ⟨network, hnetwork, bind_eq_ok.mpr ⟨values, hstart, ?_⟩⟩
    refine bind_eq_ok.mpr ⟨steps, hrounds, ?_⟩
    rw [hend]
    rfl
  obtain ⟨network', generator', hnetwork', hgenerator', _, hplayed, _⟩ :=
    exists_playRounds_of_run hrun
  obtain rfl : network = network' := Except.ok.inj (hnetwork.symm.trans hnetwork')
  obtain rfl := Except.ok.inj (hgenerator.symm.trans hgenerator')
  have hsame : steps = Run.rounds ⟨values, steps⟩ := Except.ok.inj (hrounds.symm.trans hplayed)
  refine ⟨⟨values, steps⟩, hrun, ?_, hsame, ?_⟩
  · rw [Run.states, ← hsame, List.length_cons, List.length_map, hlength]
  · intro done held hheld
    rw [Run.states, ← hsame] at hheld
    rw [← Nat.zero_add done]
    exact hknows done held hheld

end LossyConsensus.Simulation
