/-
# The inboxes of a round

What a process finds in its inbox when it computes its next value.  Everything
in it goes back to the flood with which the round began, so it shows values from
before the round only; topology and faults have let it pass; and there is at
most one message from each other process.  The channel guarantee changes
nothing of this, because it draws on what the delivery models have lost and
never on what was taken out before them.
-/

import LossyConsensus.Proofs.Network.Delivery
import LossyConsensus.Proofs.Network.Fault
import LossyConsensus.Proofs.Network.Inbox
import LossyConsensus.Simulation.Run
import Mathlib.Algebra.Order.BigOperators.Group.List
import Mathlib.Algebra.Order.Group.Nat
import Mathlib.Data.List.Perm.Subperm

namespace LossyConsensus.Simulation

open LossyConsensus.Network LossyConsensus.Protocol LossyConsensus.Random

variable {R : Type} [Scalar R]

/-- A message is what a receiver may find of its sender in a round: it goes back
to the only message of the flood from one to the other, which carries the value
that the sender held before the round; the topology connects the two; no part of
the faults separates them; and the faults have made this message of that one. -/
structure Arrives (experiment : Experiment R) (values : List R) (round receiver : Int)
    (message : Message R) : Prop where
  addressed : message.receiver = receiver
  sender : message.sender ∈ processIds experiment.processes
  origin : ∃ value, values[(message.sender - 1).toNat]? = some value ∧
    (flood values).filter (fun other => other.ends == (message.sender, receiver)) =
      [⟨message.sender, receiver, value⟩] ∧
    (experiment.faults = none → message.payload = value) ∧
    ∀ fault, experiment.faults = some fault →
      fault.transform ⟨message.sender, receiver, value⟩ round = .ok (some message)
  connected : ∀ topology, experiment.topology = some topology →
    topology.connects message.sender receiver experiment.processes = .ok true
  passed : ∀ fault, experiment.faults = some fault → ∀ part : Fault R, part.IsPart fault →
    part.passes message.sender receiver round = .ok true

/-- The inboxes of a round as the network promises them: one for each process,
with at most one message from each other process, all of which arrive. -/
structure Faithful (experiment : Experiment R) (values : List R) (round : Int)
    (inboxes : Inboxes R) : Prop where
  receivers : inboxes.map (·.1) = processIds experiment.processes
  oneEach : ∀ id, ((inboxes.get id).map (·.sender)).Nodup
  notOwn : ∀ id, ∀ message ∈ inboxes.get id, message.sender ≠ id
  arrives : ∀ id, ∀ message ∈ inboxes.get id, Arrives experiment values round id message

variable {experiment : Experiment R} {network : Network R} {values : List R} {round : Int}

/-! ## Before delivery -/

/-- Under a topology the network connects a sender to those whom the topology lists
for it. -/
theorem exists_neighbors_of_ofExperiment {topology : Topology R}
    (hnetwork : Network.ofExperiment experiment = .ok network)
    (htopology : experiment.topology = some topology) {message : Message R}
    (hsender : message.sender ∈ processIds experiment.processes) :
    ∃ ids, topology.neighbors message.sender experiment.processes = .ok ids ∧
      network.connects message = ids.contains message.receiver := by
  rw [Network.ofExperiment, bind_eq_ok] at hnetwork
  obtain ⟨assignment, _, hnetwork⟩ := hnetwork
  rw [htopology, bind_eq_ok] at hnetwork
  obtain ⟨neighbors, hneighbors, hnetwork⟩ := hnetwork
  obtain rfl := pure_eq_ok.mp hnetwork
  rw [Option.mapM_some, map_eq_pure_bind, bind_eq_ok] at hneighbors
  obtain ⟨table, htable, hneighbors⟩ := hneighbors
  obtain rfl := pure_eq_ok.mp hneighbors
  obtain ⟨ids, hids, hlookup⟩ := lookup_of_mapM_eq_ok htable hsender
  refine ⟨ids, mapError_eq_ok.mp hids, ?_⟩
  simp only [Network.connects, hlookup, Option.getD_some]

/-- Under a topology the network connects whom the topology connects. -/
theorem connects_of_ofExperiment (hnetwork : Network.ofExperiment experiment = .ok network)
    {message : Message R} (hsender : message.sender ∈ processIds experiment.processes)
    (hconnects : network.connects message = true) {topology : Topology R}
    (htopology : experiment.topology = some topology) :
    topology.connects message.sender message.receiver experiment.processes = .ok true := by
  obtain ⟨ids, hids, hsame⟩ := exists_neighbors_of_ofExperiment hnetwork htopology hsender
  rw [Topology.connects, hids]
  exact congrArg Except.ok (hsame.symm.trans hconnects)

/-- Without a topology the network connects everyone. -/
theorem connects_of_topology_eq_none (hnetwork : Network.ofExperiment experiment = .ok network)
    (hnone : experiment.topology = none) (message : Message R) :
    network.connects message = true := by
  rw [Network.ofExperiment, bind_eq_ok] at hnetwork
  obtain ⟨assignment, _, hnetwork⟩ := hnetwork
  rw [hnone] at hnetwork
  obtain rfl := pure_eq_ok.mp hnetwork
  rfl

/-- Without faults everything that the network connects is sent. -/
theorem sent_eq_of_faultless (hfaults : experiment.faults = none ∨ experiment.faults = some .none)
    (network : Network R) (values : List R) (round : Int) :
    sent experiment network values round = .ok ((flood values).filter network.connects) := by
  have hnothing : ∀ messages : List (Message R),
      (Fault.none : Fault R).apply messages round = .ok messages := by
    intro messages
    refine bind_eq_ok.mpr ⟨messages.map some, mapM_eq_ok_map fun message _ => ?_, ?_⟩
    · exact Fault.affect_eq_some.mpr ⟨rfl, rfl⟩
    · rw [List.filterMap_map]
      exact congrArg Except.ok List.filterMap_some
  rw [sent]
  rcases hfaults with hnone | hnone
  · rw [hnone]
  · rw [hnone]
    exact mapError_eq_ok.mpr (hnothing _)

/-- The messages of a round are those of the flood that the network connects, and of them
what the faults leave. -/
theorem sent_eq_ok {outbound : List (Message R)} :
    sent experiment network values round = .ok outbound ↔
      (experiment.faults = none ∧ (flood values).filter network.connects = outbound) ∨
        ∃ fault, experiment.faults = some fault ∧
          fault.apply ((flood values).filter network.connects) round = .ok outbound := by
  rw [sent]
  cases experiment.faults with
  | none => simp
  | some fault => simp [mapError_eq_ok]

/-- What topology and faults leave of a flood keeps its order, as far as the ends
of the messages show. -/
theorem map_ends_sent_sublist {outbound : List (Message R)}
    (hsent : sent experiment network values round = .ok outbound) :
    (outbound.map Message.ends).Sublist ((flood values).map Message.ends) := by
  have hkept := (List.filter_sublist (p := network.connects) (l := flood values)).map Message.ends
  rcases sent_eq_ok.mp hsent with ⟨_, rfl⟩ | ⟨fault, _, hleft⟩
  · exact hkept
  · exact (Fault.map_ends_apply_sublist hleft).trans hkept

/-- Every message that is left goes back to one of the flood, which the network
lets through and of which the faults have made it. -/
theorem exists_mem_flood_of_mem_sent {outbound : List (Message R)}
    (hsent : sent experiment network values round = .ok outbound) {message : Message R}
    (hmem : message ∈ outbound) :
    ∃ first ∈ flood values, network.connects first = true ∧ message.ends = first.ends ∧
      (experiment.faults = none → message = first) ∧
      ∀ fault, experiment.faults = some fault →
        fault.affect first round = .ok (some message) := by
  rcases sent_eq_ok.mp hsent with ⟨hnone, rfl⟩ | ⟨fault, hsome, hleft⟩
  · obtain ⟨hflood, hconnects⟩ := List.mem_filter.mp hmem
    refine ⟨message, hflood, hconnects, rfl, fun _ => rfl, ?_⟩
    intro fault hfault
    rw [hnone] at hfault
    cases hfault
  · obtain ⟨first, hfirst, haffect⟩ := Fault.exists_mem_of_mem_apply hleft hmem
    obtain ⟨hflood, hconnects⟩ := List.mem_filter.mp hfirst
    have hends := Fault.ends_transform fault (Fault.affect_eq_some.mp haffect).2
    refine ⟨first, hflood, hconnects, hends, ?_, ?_⟩
    · intro hnone
      rw [hsome] at hnone
      cases hnone
    · intro other hother
      rw [hsome] at hother
      cases hother
      exact haffect

/-- A message that topology and faults leave arrives wherever it is found. -/
theorem arrives_of_mem_sent (hnetwork : Network.ofExperiment experiment = .ok network)
    (hlength : values.length = experiment.processes) {outbound : List (Message R)}
    (hsent : sent experiment network values round = .ok outbound) {message : Message R}
    (hmem : message ∈ outbound) :
    Arrives experiment values round message.receiver message := by
  obtain ⟨first, hflood, hconnects, hends, hclean, hfaulty⟩ :=
    exists_mem_flood_of_mem_sent hsent hmem
  obtain ⟨hsender, hreceiver⟩ := Message.ends_eq.mp hends
  have hprocess := sender_mem_processIds_of_mem_flood hflood
  rw [hlength] at hprocess
  have hfirst : first = ⟨message.sender, message.receiver, first.payload⟩ := by
    rw [hsender, hreceiver]
  refine ⟨rfl, hsender ▸ hprocess, ⟨first.payload, ?_, ?_, ?_, ?_⟩, ?_, ?_⟩
  · rw [hsender]
    exact (mem_flood.mp hflood).2.1
  · rw [← hfirst]
    have honly := filter_key_eq_singleton Message.ends (nodup_ends_flood values) hflood
    rwa [← hends] at honly
  · intro hnone
    rw [hclean hnone]
  · intro fault hfault
    rw [← hfirst]
    exact (Fault.affect_eq_some.mp (hfaulty fault hfault)).2
  · intro topology htopology
    rw [hsender, hreceiver]
    exact connects_of_ofExperiment hnetwork hprocess hconnects htopology
  · intro fault hfault part hpart
    rw [hsender, hreceiver]
    exact Fault.passes_of_isPart hpart (Fault.affect_eq_some.mp (hfaulty fault hfault)).1

/-! ## Delivery and top-up -/

/-- What an exchange is made of: the messages sent, their delivery, and the
top-up. -/
theorem exchange_eq_ok {generator next : Generator} {inboxes : Inboxes R} :
    exchange experiment network values round generator = .ok (inboxes, next) ↔
      ∃ outbound guarantee, sent experiment network values round = .ok outbound ∧
        experiment.channel = .guarantee guarantee ∧
        (deliver network.assignment experiment.p outbound generator).2 = next ∧
        (topUp guarantee experiment.processes
          (Inboxes.ofDelivered experiment.processes
            (deliver network.assignment experiment.p outbound generator).1.delivered)
          (deliver network.assignment experiment.p outbound generator).1.undelivered).1 =
          inboxes := by
  rw [exchange, bind_eq_ok]
  refine exists_congr fun outbound => ?_
  cases hchannel : experiment.channel with
  | guarantee guarantee => simp [enforce, hchannel, and_comm]
  | real value => simp [enforce, hchannel]
  | process id => simp [enforce, hchannel]

/-- An inbox holds some of the messages sent to its process, each at most as
often as it was sent. -/
theorem exists_perm_sublist_of_exchange {generator : Generator} {inboxes : Inboxes R}
    {next : Generator}
    (hexchange : exchange experiment network values round generator = .ok (inboxes, next)) :
    ∃ outbound, sent experiment network values round = .ok outbound ∧
      ((∀ message ∈ outbound, message.receiver ∈ processIds experiment.processes) →
        inboxes.map (·.1) = processIds experiment.processes) ∧
      ∀ id, ∃ kept, kept.Perm (addressedTo id outbound) ∧ (inboxes.get id).Sublist kept := by
  obtain ⟨outbound, guarantee, hsent, _, _, rfl⟩ := exchange_eq_ok.mp hexchange
  have hperm := deliver_perm network.assignment experiment.p outbound generator
  let outcome := (deliver network.assignment experiment.p outbound generator).1
  refine ⟨outbound, hsent, ?_, ?_⟩
  · intro hreceivers
    refine map_fst_topUp guarantee (Inboxes.map_fst_ofDelivered ?_) outcome.undelivered
    intro message hmem
    exact hreceivers message (hperm.subset (List.mem_append_left _ hmem))
  · intro id
    refine ⟨addressedTo id (outcome.delivered ++ outcome.undelivered), hperm.filter _, ?_⟩
    rw [addressedTo, List.filter_append]
    by_cases hid : id ∈ processIds experiment.processes
    · rw [get_topUp guarantee _ _ hid, Inboxes.get_ofDelivered]
      exact (List.take_sublist _ _).append_left _
    · rw [get_topUp_of_not_mem guarantee _ _ hid, Inboxes.get_ofDelivered]
      exact List.sublist_append_left _ _

/-- Whatever the delivery models draw and the channel makes up for, the inboxes
of a round are as the network promises them. -/
theorem faithful_of_exchange (hnetwork : Network.ofExperiment experiment = .ok network)
    (hlength : values.length = experiment.processes) {generator : Generator}
    {inboxes : Inboxes R} {next : Generator}
    (hexchange : exchange experiment network values round generator = .ok (inboxes, next)) :
    Faithful experiment values round inboxes := by
  obtain ⟨outbound, hsent, hkeys, hkept⟩ := exists_perm_sublist_of_exchange hexchange
  have hsublist := map_ends_sent_sublist hsent
  have hmem : ∀ id, ∀ message ∈ inboxes.get id, message ∈ outbound ∧ message.receiver = id := by
    intro id message hmessage
    obtain ⟨kept, hperm, hinbox⟩ := hkept id
    exact mem_addressedTo.mp (hperm.subset (hinbox.subset hmessage))
  have hother : ∀ message ∈ outbound,
      message.receiver ∈ processIds experiment.processes ∧ message.sender ≠ message.receiver := by
    intro message hmessage
    obtain ⟨first, hflood, _, hends, _⟩ := exists_mem_flood_of_mem_sent hsent hmessage
    obtain ⟨hsender, hreceiver⟩ := Message.ends_eq.mp hends
    obtain ⟨_, _, hprocess, hne⟩ := mem_flood.mp hflood
    rw [hsender, hreceiver, ← hlength]
    exact ⟨hprocess, hne.symm⟩
  refine ⟨hkeys fun message hmessage => (hother message hmessage).1, ?_, ?_, ?_⟩
  · intro id
    obtain ⟨kept, hperm, hinbox⟩ := hkept id
    have hsenders := nodup_senders_addressedTo (hsublist.nodup (nodup_ends_flood values)) id
    exact ((hperm.map _).nodup_iff.mpr hsenders).sublist (hinbox.map _)
  · intro id message hmessage
    obtain ⟨hsentTo, rfl⟩ := hmem id message hmessage
    exact (hother message hsentTo).2
  · intro id message hmessage
    obtain ⟨hsentTo, rfl⟩ := hmem id message hmessage
    exact arrives_of_mem_sent hnetwork hlength hsent hsentTo

/-! ## Sizes -/

namespace Faithful

variable {inboxes : Inboxes R}

/-- An inbox has room for one message from each other process. -/
theorem length_get_le (hfaithful : Faithful experiment values round inboxes) {id : Int}
    (hid : id ∈ processIds experiment.processes) :
    (inboxes.get id).length ≤ experiment.processes - 1 := by
  have hsubset : (inboxes.get id).map (·.sender) ⊆ (processIds experiment.processes).erase id := by
    intro sender hsender
    obtain ⟨message, hmessage, rfl⟩ := List.mem_map.mp hsender
    rw [(nodup_processIds _).mem_erase_iff]
    exact ⟨hfaithful.notOwn id message hmessage, (hfaithful.arrives id message hmessage).sender⟩
  have hle := (hfaithful.oneEach id).length_le_of_subset hsubset
  rwa [List.length_map, List.length_erase_of_mem hid, length_processIds] at hle

theorem size_eq_sum (hfaithful : Faithful experiment values round inboxes) :
    inboxes.size =
      ((processIds experiment.processes).map fun id => (inboxes.get id).length).sum := by
  rw [← hfaithful.receivers]
  exact Inboxes.size_eq_sum (hfaithful.receivers ▸ nodup_processIds _)

/-- The messages of a round are at most one for each two processes. -/
theorem size_le (hfaithful : Faithful experiment values round inboxes) :
    inboxes.size ≤ experiment.processes * (experiment.processes - 1) := by
  rw [hfaithful.size_eq_sum]
  refine (List.sum_le_card_nsmul _ (experiment.processes - 1) ?_).trans_eq ?_
  · intro length hlength
    obtain ⟨id, hid, rfl⟩ := List.mem_map.mp hlength
    exact hfaithful.length_get_le hid
  · rw [List.length_map, length_processIds, Nat.nsmul_eq_mul]

end Faithful

end LossyConsensus.Simulation
