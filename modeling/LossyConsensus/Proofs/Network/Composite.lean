/-
# Faults one after another

A composite asks all of its models whether a message may pass before any of them
changes it, while models applied one after another take turns.  Both leave the same
messages: whether a model lets a message pass, and whether it suppresses it, is told
from the two ends of the message, and these no model changes.
-/

import LossyConsensus.Proofs.Network.Slot
import LossyConsensus.Proofs.Scalar.Exact

namespace LossyConsensus.Network

open LossyConsensus.Random

/-- A message from one process to another; processes are numbered from one. -/
def Message.IsBetweenProcesses {R : Type} (message : Message R) : Prop :=
  1 ≤ message.sender ∧ 1 ≤ message.receiver

namespace Fault

variable {R : Type}

/-- A fault model none of whose seeds is negative, nor any seed of a model inside of
it. -/
inductive IsSeeded : Fault R → Prop
  | none : IsSeeded .none
  | crash (probability : R) (round : Int) {seed : Int} (h : 0 ≤ seed) :
      IsSeeded (.crash probability round seed)
  | byzantine (nodes : List Int) (strategy : Strategy) : IsSeeded (.byzantine nodes strategy)
  | partition (round duration : Int) (groups : List (List Int)) :
      IsSeeded (.partition round duration groups)
  | corruption (probability : R) (how : Corruption) {seed : Int} (h : 0 ≤ seed) :
      IsSeeded (.corruption probability how seed)
  | composite {models : List (Fault R)} (h : ∀ model ∈ models, IsSeeded model) :
      IsSeeded (.composite models)

variable [Scalar R]

/-- Messages as several models leave them, each of which is given what the one before
it left. -/
def applyInTurn (models : List (Fault R)) (messages : List (Message R)) (round : Int) :
    Except SeedError (List (Message R)) :=
  models.foldlM (fun left model => model.apply left round) messages

/-- A fault model sifts the messages of a round by their ends: it decides by the two
ends of a message alone whether it is left, and one that is left has kept both ends
and its place among the others. -/
def SiftsByEnds (fault : Fault R) (round : Int) : Prop :=
  ∃ (keeps : Int → Int → Bool) (value : Message R → R),
    ∀ messages : List (Message R), (∀ message ∈ messages, message.IsBetweenProcesses) →
      fault.apply messages round =
        .ok ((messages.filter fun message => keeps message.sender message.receiver).map
          fun message => { message with payload := value message })

/-! ## Answers -/

theorem exists_ofSeeds (seeds : List Int) (h : ∀ seed ∈ seeds, 0 ≤ seed) :
    ∃ generator, Generator.ofSeeds seeds = .ok generator := by
  have hnone : seeds.any (· < 0) = false := by
    rw [List.any_eq_false]
    intro seed hseed
    have := h seed hseed
    simpa using this
  rw [Generator.ofSeeds, hnone]
  exact ⟨_, rfl⟩

theorem exists_allPass {models : List (Fault R)} {sender receiver round : Int}
    (h : ∀ model ∈ models, ∃ passed, model.passes sender receiver round = .ok passed) :
    ∃ passed, allPass models sender receiver round = .ok passed := by
  induction models with
  | nil => exact ⟨true, rfl⟩
  | cons model rest ih =>
      obtain ⟨⟨passed, hpassed⟩, hrest⟩ := List.forall_mem_cons.mp h
      rw [allPass, hpassed, ok_bind]
      cases passed with
      | false => exact ⟨false, rfl⟩
      | true => exact ih hrest

/-- A fault model with seeds tells whether a process reaches another one. -/
theorem IsSeeded.exists_passes {fault : Fault R} (hseeded : fault.IsSeeded) {sender : Int}
    (hsender : 1 ≤ sender) (receiver round : Int) :
    ∃ passed, fault.passes sender receiver round = .ok passed := by
  induction hseeded with
  | none => exact ⟨true, rfl⟩
  | crash probability start h =>
      rename_i seed
      have hcrashes : ∃ crashed, crashes probability seed sender = .ok crashed := by
        obtain ⟨generator, hgenerator⟩ := exists_ofSeeds [seed + sender] (by simp; omega)
        exact ⟨_, bind_eq_ok.mpr ⟨generator, hgenerator, rfl⟩⟩
      obtain ⟨crashed, hcrashed⟩ := hcrashes
      rw [passes, isFaulty]
      split
      · exact ⟨_, bind_eq_ok.mpr ⟨crashed, hcrashed, rfl⟩⟩
      · exact ⟨_, rfl⟩
  | byzantine nodes strategy => exact ⟨true, rfl⟩
  | partition start duration groups => exact ⟨_, rfl⟩
  | corruption probability how h => exact ⟨true, rfl⟩
  | composite _ ih =>
      rw [passes]
      exact exists_allPass ih

theorem exists_transformAll_of_each {models : List (Fault R)} {round : Int}
    (h : ∀ model ∈ models, ∀ message : Message R, message.IsBetweenProcesses →
      ∃ sent, model.transform message round = .ok sent)
    {message : Message R} (hmessage : message.IsBetweenProcesses) :
    ∃ sent, transformAll models message round = .ok sent := by
  induction models generalizing message with
  | nil => exact ⟨_, rfl⟩
  | cons model rest ih =>
      obtain ⟨hmodel, hrest⟩ := List.forall_mem_cons.mp h
      obtain ⟨sent, hsent⟩ := hmodel message hmessage
      rw [transformAll, hsent, ok_bind]
      cases sent with
      | none => exact ⟨_, rfl⟩
      | some between =>
          obtain ⟨hsender, hreceiver⟩ := Message.ends_eq.mp (ends_transform model hsent)
          refine ih hrest ?_
          rw [Message.IsBetweenProcesses, hsender, hreceiver]
          exact hmessage

/-- A fault model with seeds tells what is sent in place of a message. -/
theorem IsSeeded.exists_transform {fault : Fault R} (hseeded : fault.IsSeeded) {round : Int}
    (hround : 1 ≤ round) {message : Message R} (hmessage : message.IsBetweenProcesses) :
    ∃ sent, fault.transform message round = .ok sent := by
  induction hseeded generalizing message with
  | none => exact ⟨_, rfl⟩
  | crash => exact ⟨_, rfl⟩
  | partition => exact ⟨_, rfl⟩
  | byzantine nodes strategy =>
      obtain ⟨hsender, hreceiver⟩ := hmessage
      rw [transform]
      split
      · cases strategy with
        | random =>
            obtain ⟨generator, hgenerator⟩ := exists_ofSeeds
              [message.sender, message.receiver, round] (by simp; omega)
            exact ⟨_, bind_eq_ok.mpr ⟨generator, hgenerator, rfl⟩⟩
        | maxValue => exact ⟨_, rfl⟩
        | minValue => exact ⟨_, rfl⟩
        | opposite => exact ⟨_, rfl⟩
        | silent => exact ⟨_, rfl⟩
      · exact ⟨_, rfl⟩
  | corruption probability how h =>
      rename_i seed
      obtain ⟨hsender, hreceiver⟩ := hmessage
      obtain ⟨generator, hgenerator⟩ := exists_ofSeeds
        [seed, message.sender, message.receiver, round] (by simp; omega)
      rw [transform, corrupt, hgenerator, ok_bind]
      dsimp only
      split
      · exact ⟨_, rfl⟩
      · exact ⟨_, rfl⟩
  | composite _ ih =>
      rw [transform]
      exact exists_transformAll_of_each (fun model hmem message h => ih model hmem h) hmessage

/-- What a fault model leaves of a message, if it has an answer for it. -/
def remnant (fault : Fault R) (round : Int) (message : Message R) : Option (Message R) :=
  (fault.affect message round).toOption.join

theorem IsSeeded.affect_eq {fault : Fault R} (hseeded : fault.IsSeeded) {round : Int}
    (hround : 1 ≤ round) {message : Message R} (hmessage : message.IsBetweenProcesses) :
    fault.affect message round = .ok (fault.remnant round message) := by
  obtain ⟨passed, hpassed⟩ := hseeded.exists_passes hmessage.1 message.receiver round
  obtain ⟨sent, hsent⟩ := hseeded.exists_transform hround hmessage
  cases passed with
  | false => simp [remnant, affect, hpassed, pure, Except.pure, Except.toOption]
  | true => simp [remnant, affect, hpassed, hsent, Except.toOption]

/-- A fault model with seeds has an answer for every list of messages, and treats each
message by itself. -/
theorem IsSeeded.apply_eq {fault : Fault R} (hseeded : fault.IsSeeded) {round : Int}
    (hround : 1 ≤ round) {messages : List (Message R)}
    (hmessages : ∀ message ∈ messages, message.IsBetweenProcesses) :
    fault.apply messages round = .ok (messages.filterMap (fault.remnant round)) := by
  rw [apply, mapM_eq_ok_map fun message hmem => hseeded.affect_eq hround (hmessages message hmem),
    ok_bind, List.filterMap_map]
  rfl

/-! ## Taking turns -/

theorem IsSeeded.isBetweenProcesses_of_remnant {fault : Fault R} (hseeded : fault.IsSeeded)
    {round : Int} (hround : 1 ≤ round) {message changed : Message R}
    (hmessage : message.IsBetweenProcesses) (h : fault.remnant round message = some changed) :
    changed.ends = message.ends ∧ changed.IsBetweenProcesses := by
  have haffect := hseeded.affect_eq hround hmessage
  rw [h, affect_eq_some] at haffect
  have hends := ends_transform fault haffect.2
  obtain ⟨hsender, hreceiver⟩ := Message.ends_eq.mp hends
  refine ⟨hends, ?_⟩
  rw [Message.IsBetweenProcesses, hsender, hreceiver]
  exact hmessage

/-- A composite leaves of a message what the models after the first one leave of what
the first one leaves.  The later models are asked about the message as it was, but its
ends are all they are asked about. -/
theorem remnant_composite_cons {model : Fault R} {rest : List (Fault R)}
    (hmodel : model.IsSeeded) (hrest : (composite rest).IsSeeded) {round : Int}
    (hround : 1 ≤ round) {message : Message R} (hmessage : message.IsBetweenProcesses) :
    (composite (model :: rest)).remnant round message =
      (model.remnant round message).bind ((composite rest).remnant round) := by
  obtain ⟨passed, hpassed⟩ := hmodel.exists_passes hmessage.1 message.receiver round
  obtain ⟨sent, hsent⟩ := hmodel.exists_transform hround hmessage
  obtain ⟨passed', hpassed'⟩ := hrest.exists_passes hmessage.1 message.receiver round
  rw [passes] at hpassed'
  cases passed with
  | false =>
      simp [remnant, affect, passes, allPass, hpassed, pure, Except.pure, Except.toOption]
  | true =>
      cases sent with
      | none =>
          cases passed' <;>
            simp [remnant, affect, passes, allPass, transform, transformAll, hpassed, hpassed',
              hsent, pure, Except.pure, Except.toOption]
      | some between =>
          obtain ⟨hsender, hreceiver⟩ := Message.ends_eq.mp (ends_transform model hsent)
          simp [remnant, affect, passes, allPass, transform, transformAll, hpassed, hpassed',
            hsent, hsender, hreceiver, Except.toOption]

/-- A composite of models with seeds leaves what its models leave in turn. -/
theorem apply_composite_eq_applyInTurn {models : List (Fault R)}
    (hseeded : ∀ model ∈ models, model.IsSeeded) {round : Int} (hround : 1 ≤ round)
    {messages : List (Message R)}
    (hmessages : ∀ message ∈ messages, message.IsBetweenProcesses) :
    (composite models).apply messages round = applyInTurn models messages round := by
  induction models generalizing messages with
  | nil =>
      rw [(IsSeeded.composite hseeded).apply_eq hround hmessages, applyInTurn, List.foldlM_nil]
      have hall : (composite ([] : List (Fault R))).remnant round = some := rfl
      rw [hall, List.filterMap_some]
      rfl
  | cons model rest ih =>
      obtain ⟨hmodel, hrest⟩ := List.forall_mem_cons.mp hseeded
      have hleft : ∀ message ∈ messages.filterMap (model.remnant round),
          message.IsBetweenProcesses := by
        intro changed hchanged
        obtain ⟨message, hmessage, hsome⟩ := List.mem_filterMap.mp hchanged
        exact (hmodel.isBetweenProcesses_of_remnant hround (hmessages message hmessage) hsome).2
      calc
        (composite (model :: rest)).apply messages round
            = .ok (messages.filterMap ((composite (model :: rest)).remnant round)) :=
              (IsSeeded.composite hseeded).apply_eq hround hmessages
        _ = .ok ((messages.filterMap (model.remnant round)).filterMap
              ((composite rest).remnant round)) := by
              rw [List.filterMap_filterMap]
              exact congrArg _ (List.filterMap_congr fun message hmem =>
                remnant_composite_cons hmodel (.composite hrest) hround (hmessages message hmem))
        _ = applyInTurn rest (messages.filterMap (model.remnant round)) round := by
              rw [← ih hrest hleft, (IsSeeded.composite hrest).apply_eq hround hleft]
        _ = applyInTurn (model :: rest) messages round := by
              rw [applyInTurn, applyInTurn, List.foldlM_cons, hmodel.apply_eq hround hmessages,
                ok_bind]

/-! ## Sifting -/

/-- A fault model with seeds sifts messages by their ends. -/
theorem IsSeeded.siftsByEnds {fault : Fault R} (hseeded : fault.IsSeeded) {round : Int}
    (hround : 1 ≤ round) : fault.SiftsByEnds round := by
  refine ⟨fun sender receiver =>
      (fault.remnant round { sender, receiver, payload := Scalar.zero }).isSome,
    fun message => ((fault.remnant round message).map (·.payload)).getD message.payload, ?_⟩
  intro messages hmessages
  rw [hseeded.apply_eq hround hmessages, ← List.filterMap_eq_map, List.filterMap_filter]
  refine congrArg _ (List.filterMap_congr fun message hmem => ?_)
  have hmessage := hmessages message hmem
  -- A message with the same ends and any other value fares alike.
  have hsameEnds : message.ends = Message.ends { message with payload := (Scalar.zero : R) } := rfl
  have halike := map_ends_affect_eq hsameEnds (hseeded.affect_eq hround hmessage)
    (hseeded.affect_eq hround hmessage)
  have hsame := congrArg Option.isSome halike
  rw [Option.isSome_map, Option.isSome_map] at hsame
  change fault.remnant round message = if (fault.remnant round _).isSome = true then some _ else _
  rw [← hsame]
  cases hleft : fault.remnant round message with
  | none => rfl
  | some changed =>
      have hends := (hseeded.isBetweenProcesses_of_remnant hround hmessage hleft).1
      refine congrArg some (Message.eq_of_ends hends ?_)
      dsimp only
      rw [hleft]
      rfl

/-- Composites apply their models in turn.  From the first round on, and for messages
between processes, a composite of fault models whose seeds are not negative has an
answer, and it is the one to which the models come one after another.  Each fault model
with such seeds, composites among them, decides by the two ends of a message alone
whether it is left, and keeps the ends and the order of what it leaves. -/
theorem composite_applies_models_in_turn {round : Int} (hround : 1 ≤ round) :
    (∀ models : List (Fault R), (∀ model ∈ models, model.IsSeeded) →
      ∀ messages : List (Message R), (∀ message ∈ messages, message.IsBetweenProcesses) →
        ∃ left, (composite models).apply messages round = .ok left ∧
          applyInTurn models messages round = .ok left) ∧
    ∀ fault : Fault R, fault.IsSeeded → fault.SiftsByEnds round := by
  refine ⟨?_, fun fault hseeded => hseeded.siftsByEnds hround⟩
  intro models hseeded messages hmessages
  have happly := (IsSeeded.composite hseeded).apply_eq hround hmessages
  exact ⟨_, happly, apply_composite_eq_applyInTurn hseeded hround hmessages ▸ happly⟩

/-- A liar who keeps silent, beside a corruption that always strikes, and both of them
beside a second liar and a crash that comes later. -/
def nestedFaults : List (Fault ℚ) :=
  [.composite [.byzantine [2] .silent, .corruption 1 .flipBits 5], .byzantine [1] .opposite,
    .crash 1 2 7]

/-- The nested faults drop what the second process sends and change the rest twice. -/
theorem nestedFaults_apply_in_turn : ∃ left : List (Message ℚ),
    (composite nestedFaults).apply [⟨1, 2, 3⟩, ⟨2, 1, 4⟩, ⟨3, 1, 5⟩] 1 = .ok left ∧
    applyInTurn nestedFaults [⟨1, 2, 3⟩, ⟨2, 1, 4⟩, ⟨3, 1, 5⟩] 1 = .ok left ∧
    left = [⟨1, 2, 2⟩, ⟨3, 1, -4⟩] ∧ (composite nestedFaults).SiftsByEnds 1 := by
  have hseeded : ∀ model ∈ nestedFaults, model.IsSeeded := by
    rw [nestedFaults, List.forall_mem_cons, List.forall_mem_cons, List.forall_mem_singleton]
    refine ⟨.composite ?_, .byzantine _ _, .crash _ _ (by decide)⟩
    rw [List.forall_mem_cons, List.forall_mem_singleton]
    exact ⟨.byzantine _ _, .corruption _ _ (by decide)⟩
  have hmessages : ∀ message ∈ [(⟨1, 2, 3⟩ : Message ℚ), ⟨2, 1, 4⟩, ⟨3, 1, 5⟩],
      message.IsBetweenProcesses := by
    simp [Message.IsBetweenProcesses]
  obtain ⟨hturns, hsifts⟩ := composite_applies_models_in_turn (R := ℚ)
    (by decide : (1 : Int) ≤ 1)
  obtain ⟨left, happly, hinTurn⟩ := hturns nestedFaults hseeded _ hmessages
  have hleft : (composite nestedFaults).apply [⟨1, 2, 3⟩, ⟨2, 1, 4⟩, ⟨3, 1, 5⟩] 1 =
      .ok [⟨1, 2, 2⟩, ⟨3, 1, -4⟩] := by decide +kernel
  exact ⟨left, happly, hinTurn, Except.ok.inj (happly.symm.trans hleft),
    hsifts _ (.composite hseeded)⟩

end Fault

end LossyConsensus.Network
