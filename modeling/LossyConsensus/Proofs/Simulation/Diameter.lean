/-
# Flooding takes the diameter

Everyone holds the extreme of all values as soon as the rounds are as many as
the diameter.  Before that, and forever in a graph of which some process cannot
reach another one, a single process that starts further out than the others is
not heard of everywhere.
-/

import LossyConsensus.Proofs.Scalar.Double
import LossyConsensus.Proofs.Simulation.Flooding

namespace LossyConsensus.Simulation

open LossyConsensus.Network LossyConsensus.Protocol

variable {R : Type} [Scalar R]

variable {extreme : Extreme} {topology : Topology R} {values held : List R}
  {edge : Int → Int → Prop} {distance done : Nat}

/-- Within the diameter everyone comes to hold the extreme of all values. -/
theorem Knows.attained (hknows : Knows extreme edge values done held) (hle : distance ≤ done)
    (hdistance : ∀ first ∈ processIds values.length, ∀ last ∈ processIds values.length,
      Within edge distance first last) :
    ∀ value ∈ held, extreme.Attained values value := by
  intro value hvalue
  obtain ⟨id, hid, hat⟩ := exists_valueOf_of_mem hvalue
  rw [hknows.1] at hid
  obtain ⟨own, hown, ⟨source, _, _, hsource⟩, hbounds⟩ := hknows.2 id hid
  obtain rfl := Option.some.inj (hat.symm.trans hown)
  refine ⟨mem_of_valueOf hsource, fun other hother => ?_⟩
  obtain ⟨first, hfirst, hvalueFirst⟩ := exists_valueOf_of_mem hother
  exact hbounds first hfirst ((hdistance first hfirst id hid).mono hle) other hvalueFirst

/-! ## One process further out -/

/-- Initial values of which only one process has the one further out. -/
def beacon (extreme : Extreme) (count : Nat) (source : Int) : List R :=
  (processIds count).map fun id => if id = source then extreme.far else extreme.near

section Beacon

variable {count : Nat} {source id : Int}

theorem length_beacon : (beacon extreme count source : List R).length = count := by
  rw [beacon, List.length_map, length_processIds]

theorem valueOf_beacon (hid : id ∈ processIds count) :
    valueOf (beacon extreme count source : List R) id =
      some (if id = source then extreme.far else extreme.near) := by
  have hbounds := mem_processIds.mp hid
  have hat : (processIds count)[(id - 1).toNat]? = some id := by
    rw [processIds, List.getElem?_map, List.getElem?_range (by omega), Option.map_some]
    congr 1
    omega
  rw [valueOf, beacon, List.getElem?_map, hat, Option.map_some]

theorem mem_beacon {value : R} (h : value ∈ (beacon extreme count source : List R)) :
    value = extreme.far ∨ value = extreme.near := by
  obtain ⟨id, _, rfl⟩ := List.mem_map.mp h
  split
  · exact .inl rfl
  · exact .inr rfl

variable [LawfulScalar R]

theorem isFinite_of_mem_beacon : ∀ value ∈ (beacon extreme count source : List R),
    Scalar.IsFinite value := by
  intro value hvalue
  rcases mem_beacon hvalue with rfl | rfl
  · exact extreme.isFinite_far
  · exact extreme.isFinite_near

omit [LawfulScalar R] in
/-- Where the process further out is not heard of, the nearer value stays. -/
theorem Knows.valueOf_eq_near (hknows : Knows extreme edge (beacon extreme count source) done held)
    (hid : id ∈ processIds count) (hfar : ¬ Within edge done source id) :
    valueOf held id = some extreme.near := by
  obtain ⟨own, hown, ⟨first, hfirst, hwalk, hvalue⟩, _⟩ :=
    hknows.2 id (by rw [length_beacon]; exact hid)
  rw [length_beacon] at hfirst
  rw [valueOf_beacon hfirst, if_neg] at hvalue
  · rw [hown, ← hvalue]
  · rintro rfl
    exact hfar hwalk

/-- The process further out keeps its value. -/
theorem Knows.valueOf_eq_far (hknows : Knows extreme edge (beacon extreme count source) done held)
    (hsource : source ∈ processIds count) : valueOf held source = some extreme.far := by
  have hsource' : source ∈ processIds (beacon extreme count source : List R).length := by
    rw [length_beacon]
    exact hsource
  obtain ⟨own, hown, ⟨first, _, _, hvalue⟩, hbounds⟩ := hknows.2 source hsource'
  have hfar := hbounds source hsource' (.here done source) extreme.far
    ((valueOf_beacon hsource).trans (congrArg some (if_pos rfl)))
  rcases mem_beacon (mem_of_valueOf hvalue) with rfl | rfl
  · exact hown
  · rw [extreme.bounds_near_far] at hfar
    cases hfar

/-- Among values of zero and one that are both there, the discrepancy is one. -/
theorem discrepancy_ne_zero
    (hmem : ∀ value ∈ held, value = (Scalar.zero : R) ∨ value = Scalar.ofNat 1)
    (hzero : Scalar.zero ∈ held) (hone : Scalar.ofNat 1 ∈ held) :
    Scalar.eq (discrepancy held) Scalar.zero = false := by
  cases held with
  | nil => cases hzero
  | cons first rest =>
      have hnumbers : ∀ value ∈ first :: rest, Scalar.IsNumber value := by
        intro value hvalue
        rcases hmem value hvalue with rfl | rfl
        · exact LawfulScalar.isNumber_of_isFinite LawfulScalar.isFinite_zero
        · exact LawfulScalar.isNumber_of_isFinite LawfulScalar.isFinite_one
      obtain ⟨hfirst, hrest⟩ := List.forall_mem_cons.mp hnumbers
      obtain ⟨hleast, hbelow⟩ := Extreme.least.attained_pick hfirst hrest
      obtain ⟨hgreatest, habove⟩ := Extreme.greatest.attained_pick hfirst hrest
      have hzeroLeast : Scalar.least first rest = (Scalar.zero : R) := by
        rcases hmem _ hleast with heq | heq
        · exact heq
        · have hle := hbelow _ hzero
          rw [heq] at hle
          exact absurd hle (by rw [Extreme.bounds, Extreme.le_one_zero]; exact Bool.false_ne_true)
      have honeGreatest : Scalar.greatest first rest = (Scalar.ofNat 1 : R) := by
        rcases hmem _ hgreatest with heq | heq
        · have hle := habove _ hone
          rw [heq] at hle
          exact absurd hle (by rw [Extreme.bounds, Extreme.le_one_zero]; exact Bool.false_ne_true)
        · exact heq
      rw [discrepancy, hzeroLeast, honeGreatest]
      exact LawfulScalar.one_sub_zero_ne_zero

/-- As long as a process is not heard of by another one, there is a discrepancy. -/
theorem Knows.discrepancy_ne_zero
    (hknows : Knows extreme edge (beacon extreme count source) done held)
    (hsource : source ∈ processIds count) (hid : id ∈ processIds count)
    (hfar : ¬ Within edge done source id) :
    Scalar.eq (discrepancy held) Scalar.zero = false := by
  have hmem : ∀ value ∈ held, value = extreme.far ∨ value = extreme.near := by
    intro value hvalue
    obtain ⟨id, hid, hat⟩ := exists_valueOf_of_mem hvalue
    rw [hknows.1] at hid
    obtain ⟨own, hown, ⟨first, _, _, hfirst⟩, _⟩ := hknows.2 id hid
    obtain rfl := Option.some.inj (hat.symm.trans hown)
    exact mem_beacon (mem_of_valueOf hfirst)
  have hfar := mem_of_valueOf (hknows.valueOf_eq_far hsource)
  have hnear := mem_of_valueOf (hknows.valueOf_eq_near hid ‹_›)
  cases extreme with
  | least => exact Simulation.discrepancy_ne_zero hmem hfar hnear
  | greatest => exact Simulation.discrepancy_ne_zero (fun v hv => (hmem v hv).symm) hnear hfar

end Beacon

/-! ## The diameter -/

/-- Every run that floods given values ends, from any seed, and has a property. -/
def EveryFlood (extreme : Extreme) (topology : Topology R) (values : List R)
    (property : R → Run R → Prop) : Prop :=
  ∀ experiment, Floods extreme topology values experiment →
    ∀ (seed : Int) (tolerance : R), 0 ≤ seed →
      ∃ finished, run experiment seed tolerance = .ok finished ∧
        finished.states.length = experiment.rounds + 1 ∧ property tolerance finished

/-- What a stated diameter says about flooding.  Once the rounds are as many as it
says, and in every round after that, all processes hold the extreme of the
values, whatever finite values they started with.  For every smaller number of
rounds there are values of which some process does not hold the extreme after so
many rounds.  If the diameter is stated as -1, there are values for which a
discrepancy always remains. -/
structure IsFloodingTime (extreme : Extreme) (topology : Topology R) (count : Nat)
    (stated : Int) : Prop where
  completes : 0 ≤ stated → ∀ values : List R, values.length = count →
    (∀ value ∈ values, Scalar.IsFinite value) →
    EveryFlood extreme topology values fun _ finished =>
      ∀ (done : Nat) (held : List R), finished.states[done]? = some held →
        held.length = count ∧ (stated ≤ done → ∀ value ∈ held, extreme.Attained values value)
  least : ∀ fewer : Nat, (fewer : Int) < stated → ∃ values : List R, values.length = count ∧
    (∀ value ∈ values, Scalar.IsFinite value) ∧
    EveryFlood extreme topology values fun _ finished =>
      ∀ held : List R, finished.states[fewer]? = some held →
        ∃ value ∈ held, ¬ extreme.Attained values value
  never : stated = -1 → ∃ values : List R, values.length = count ∧
    (∀ value ∈ values, Scalar.IsFinite value) ∧
    EveryFlood extreme topology values fun tolerance finished =>
      (finished.summary tolerance).discrepancies.length = finished.states.length ∧
        ∀ apart ∈ (finished.summary tolerance).discrepancies,
          Scalar.eq apart Scalar.zero = false

theorem discrepancies_eq {finished : Run R} (h : finished.steps = finished.rounds) (tolerance : R) :
    (finished.summary tolerance).discrepancies = finished.states.map discrepancy := by
  rw [Run.summary, Run.states, List.map_cons, List.map_map, ← h]
  rfl

variable [LawfulScalar R]

/-- Floods of finite values go as far as the rounds carry them. -/
theorem everyFlood_of_knows {count : Nat}
    (hinhabits : Inhabits (fun node => topology.neighbors node count) count)
    (hlength : values.length = count) (hfinite : ∀ value ∈ values, Scalar.IsFinite value)
    {property : R → Run R → Prop}
    (hproperty : ∀ tolerance finished, finished.steps = finished.rounds →
      (∀ (done : Nat) (held : List R), finished.states[done]? = some held →
        Knows extreme (topology.Edge count) values done held) → property tolerance finished) :
    EveryFlood extreme topology values property := by
  subst hlength
  intro experiment hfloods seed tolerance hseed
  obtain ⟨finished, hrun, hlength, hrounds, hknows⟩ := hfloods.exists_run hinhabits
    (fun value hvalue => LawfulScalar.isNumber_of_isFinite (hfinite value hvalue)) hseed tolerance
  exact ⟨finished, hrun, hlength, hproperty tolerance finished hrounds hknows⟩

/-- Flooding completes in exactly the diameter that a topology states, whichever
extreme is flooded and whatever the delivery models are. -/
theorem flooding_takes_stated_diameter (extreme : Extreme) {topology : Topology R}
    (hmade : topology.IsMade) {count : Nat} (hcount : 0 < count) (hfits : topology.Fits count) :
    ∃ stated, topology.diameter count = .ok stated ∧ -1 ≤ stated ∧
      IsFloodingTime extreme topology count stated := by
  have hinhabits := topology.inhabits hmade hcount hfits
  obtain ⟨stated, hdiameter, ⟨distance, rfl, hall, source, hsource, id, hid, hfar⟩ |
    ⟨rfl, source, hsource, id, hid, hfar⟩⟩ := topology.exists_diameter hmade hcount hfits
  · refine ⟨distance, hdiameter, by omega, ?_, ?_, fun hstated => by omega⟩
    · intro _ values hlength hfinite
      refine everyFlood_of_knows hinhabits hlength hfinite fun _ finished _ hknows => ?_
      intro done held hheld
      have hat := hknows done held hheld
      refine ⟨hat.1.trans hlength, fun hdone => hat.attained (Int.ofNat_le.mp hdone) ?_⟩
      rw [hlength]
      exact hall
    · intro fewer hfewer
      refine ⟨beacon extreme count source, length_beacon, isFinite_of_mem_beacon,
        everyFlood_of_knows hinhabits length_beacon isFinite_of_mem_beacon
          fun _ finished _ hknows => ?_⟩
      intro held hheld
      have hnear := (hknows fewer held hheld).valueOf_eq_near hid (hfar fewer (by omega))
      refine ⟨extreme.near, mem_of_valueOf hnear, fun hattained => ?_⟩
      have hbounds := hattained.2 extreme.far
        (mem_of_valueOf ((valueOf_beacon hsource).trans (congrArg some (if_pos rfl))))
      rw [extreme.bounds_near_far] at hbounds
      cases hbounds
  · refine ⟨-1, hdiameter, by omega, fun hstated => by omega, fun fewer hfewer => by omega, ?_⟩
    intro _
    refine ⟨beacon extreme count source, length_beacon, isFinite_of_mem_beacon,
      everyFlood_of_knows hinhabits length_beacon isFinite_of_mem_beacon
        fun tolerance finished hrounds hknows => ?_⟩
    rw [discrepancies_eq hrounds]
    refine ⟨List.length_map _, fun apart hapart => ?_⟩
    obtain ⟨held, hheld, rfl⟩ := List.mem_map.mp hapart
    obtain ⟨done, hdone⟩ := List.mem_iff_getElem?.mp hheld
    exact (hknows done held hdone).discrepancy_ne_zero hsource hid (hfar done)

/-- Three processes of which each one sends to the next one only. -/
def directedTriangle : Adjacency :=
  .list [.list [.entry false, .entry true, .entry false],
    .list [.entry false, .entry false, .entry true],
    .list [.entry true, .entry false, .entry false]]

/-- Flooding the least value along the directed triangle takes two rounds. -/
theorem directedTriangle_takes_two_rounds :
    ∃ topology : Topology Float, Topology.ofAdjacency directedTriangle = .ok topology ∧
      topology.diameter (3 : Nat) = .ok 2 ∧ IsFloodingTime .least topology 3 2 := by
  let topology : Topology Float :=
    .custom [[false, true, false], [false, false, true], [true, false, false]]
  have hmakes : Topology.ofAdjacency directedTriangle = .ok topology := rfl
  have hfits : ∀ node ∈ processIds 3, (topology.neighbors node (3 : Nat)).isOk = true := by decide
  have htwo : topology.diameter (3 : Nat) = .ok 2 := by decide +kernel
  obtain ⟨stated, hstated, _, hspec⟩ := flooding_takes_stated_diameter .least (.custom hmakes)
    (by decide : 0 < 3) fun node hnode => exists_eq_ok (hfits node hnode)
  obtain rfl : stated = 2 := Except.ok.inj (hstated.symm.trans htwo)
  exact ⟨topology, hmakes, htwo, hspec⟩

end LossyConsensus.Simulation
