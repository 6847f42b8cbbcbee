/-
# Slots in a row

The messages of a flood stand sender by sender, and so do the batches that the
delivery models decide about.  Where all processes have the same model, delivering
a flood is therefore dividing it by one row of flags, one for each slot, which the
model samples batch by batch.  These are the flags that the model gives when it is
asked for the slots alone, without any messages.
-/

import LossyConsensus.Proofs.Network.Slot
import Mathlib.Data.List.Sort

namespace LossyConsensus.Network

open LossyConsensus.Random

-- Powers are those of the core library, whatever algebra is imported beside it.
attribute [local instance (2000)] instPowNat

variable {R : Type}

/-! ## Batches of a flood -/

/-- The messages of some senders, each with its value. -/
def floodOf (count : Nat) (senders : List (R × Nat)) : List (Message R) :=
  senders.flatMap fun (value, sender) => floodFrom count sender value

@[simp]
theorem floodOf_cons (count : Nat) (first : R × Nat) (rest : List (R × Nat)) :
    floodOf count (first :: rest) =
      floodFrom count first.2 first.1 ++ floodOf count rest :=
  List.flatMap_cons

theorem filter_sender_floodFrom_self (count : Nat) (sender : Int) (value : R) :
    (floodFrom count sender value).filter (fun message => message.sender == sender) =
      floodFrom count sender value := by
  refine List.filter_eq_self.mpr fun message hmessage => ?_
  rw [(mem_floodFrom.mp hmessage).1, beq_self_eq_true]

theorem filter_sender_floodFrom_of_ne (count : Nat) {sender other : Int} (hne : other ≠ sender)
    (value : R) :
    (floodFrom count other value).filter (fun message => message.sender == sender) = [] := by
  refine List.filter_eq_nil_iff.mpr fun message hmessage heq => hne ?_
  rw [← (mem_floodFrom.mp hmessage).1]
  exact beq_iff_eq.mp heq

/-- The batch of a sender holds the messages that it sends. -/
theorem filter_sender_floodOf (count : Nat) {senders : List (R × Nat)}
    (hnodup : (senders.map Prod.snd).Nodup) {pair : R × Nat} (hmem : pair ∈ senders) :
    (floodOf count senders).filter (fun message => message.sender == (pair.2 : Int)) =
      floodFrom count pair.2 pair.1 := by
  induction senders with
  | nil => cases hmem
  | cons first rest ih =>
      obtain ⟨hfresh, hrest⟩ := List.nodup_cons.mp hnodup
      have hne : ∀ other ∈ rest, (first.2 : Int) ≠ other.2 := by
        intro other hother heq
        exact hfresh (List.mem_map.mpr ⟨other, hother, (Int.ofNat.inj heq).symm⟩)
      rw [floodOf_cons, List.filter_append]
      rcases List.mem_cons.mp hmem with rfl | hmem
      · have hothers : (floodOf count rest).filter
            (fun message => message.sender == (pair.2 : Int)) = [] := by
          rw [floodOf, List.filter_flatMap, List.flatMap_eq_nil_iff]
          intro other hother
          exact filter_sender_floodFrom_of_ne count (hne other hother).symm other.1
        rw [filter_sender_floodFrom_self, hothers, List.append_nil]
      · rw [filter_sender_floodFrom_of_ne count (hne pair hmem), List.nil_append,
          ih hrest hmem]

theorem pairwise_processIds (count : Nat) : (processIds count).Pairwise (· < ·) := by
  rw [processIds, List.pairwise_map]
  refine List.pairwise_lt_range.imp fun h => ?_
  omega

theorem length_receivers {count : Nat} {sender : Int} (hsender : sender ∈ processIds count) :
    ((processIds count).filter (· != sender)).length = count - 1 := by
  rw [← List.Nodup.erase_eq_filter (nodup_processIds count) sender,
    List.length_erase_of_mem hsender, length_processIds]

/-- Every process sends to all others. -/
theorem length_floodFrom {count : Nat} {sender : Int} (hsender : sender ∈ processIds count)
    (value : R) : (floodFrom count sender value).length = count - 1 := by
  rw [floodFrom, List.length_map, length_receivers hsender]

/-! ## Delivery of a flood -/

/-- Batches divided one after the other are divided as one. -/
theorem divide_append {batch batch' : List (Message R)} {flags flags' : List Bool}
    (h : flags.length = batch.length) :
    divide (batch ++ batch') (flags ++ flags') =
      ⟨(divide batch flags).delivered ++ (divide batch' flags').delivered,
        (divide batch flags).undelivered ++ (divide batch' flags').undelivered⟩ := by
  simp only [divide, List.zip_append h.symm, List.filterMap_append]

variable [Scalar R] {assignment : Assignment} {model : Model}

theorem sample_zero (model : Model) (p : R) (generator : Generator) :
    model.sample p 0 generator = ([], generator) := by
  cases model with
  | standard => rfl
  | guaranteed minMessages scope => rfl
  | broadcast mode => rfl

/-- As many flags are sampled as all batches have messages. -/
theorem length_sampleBatches (model : Model) (p : R) (size batches : Nat)
    (generator : Generator) :
    (model.sampleBatches p size batches generator).1.length = batches * size := by
  induction batches generalizing generator with
  | zero => simp [Model.sampleBatches]
  | succ batches ih =>
      rw [Model.sampleBatches, List.length_append, ih, length_sample, Nat.succ_mul,
        Nat.add_comm]

/-- Senders one after the other have their batches divided by the flags that their
common model samples. -/
theorem deliverFrom_floodOf (p : R) {count : Nat} {outbound : List (Message R)}
    {senders : List (R × Nat)}
    (hbatches : ∀ pair ∈ senders,
      outbound.filter (fun message => message.sender == (pair.2 : Int)) =
        floodFrom count pair.2 pair.1)
    (hprocesses : ∀ pair ∈ senders, (pair.2 : Int) ∈ processIds count)
    (hmodel : ∀ id ∈ processIds count, assignment.model id = model) (generator : Generator) :
    deliverFrom assignment p outbound (senders.map fun pair => (pair.2 : Int)) generator =
      (divide (floodOf count senders)
          (model.sampleBatches p (count - 1) senders.length generator).1,
        (model.sampleBatches p (count - 1) senders.length generator).2) := by
  induction senders generalizing generator with
  | nil => rfl
  | cons first rest ih =>
      obtain ⟨hbatch, hbatches⟩ := List.forall_mem_cons.mp hbatches
      obtain ⟨hprocess, hprocesses⟩ := List.forall_mem_cons.mp hprocesses
      have hlength := length_floodFrom hprocess first.1
      have hflags : (model.sample p (count - 1) generator).1.length =
          (floodFrom count (first.2 : Int) first.1).length :=
        (length_sample model p (count - 1) generator).trans hlength.symm
      simp only [List.map_cons, deliverFrom, hbatch, hlength, hmodel _ hprocess,
        ih hbatches hprocesses, List.length_cons, Model.sampleBatches]
      rw [floodOf_cons, divide_append hflags]

omit [Scalar R] in
/-- Where there are others to send to, every process sends. -/
theorem asSet_senders_flood {values : List R} (hothers : 2 ≤ values.length) :
    Topology.asSet ((flood values).map (·.sender)) = processIds values.length := by
  refine List.Pairwise.eq_of_mem_iff (Topology.pairwise_asSet _) (pairwise_processIds _) ?_
  intro id
  rw [Topology.mem_asSet, List.mem_map]
  constructor
  · rintro ⟨message, hmessage, rfl⟩
    exact sender_mem_processIds_of_mem_flood hmessage
  · intro hid
    obtain ⟨hlow, hhigh⟩ := mem_processIds.mp hid
    have hlt : (id - 1).toNat < values.length := by omega
    let receiver : Int := if id = 1 then 2 else 1
    refine ⟨⟨id, receiver, values[(id - 1).toNat]⟩, mem_flood.mpr ⟨hlow, ?_, ?_, ?_⟩, rfl⟩
    · exact List.getElem?_eq_getElem hlt
    · rw [mem_processIds]
      grind
    · grind

/-- Where all processes have the same model, delivering a flood divides it by the
flags that the model samples for as many batches as there are processes. -/
theorem deliver_flood (p : R) (values : List R)
    (hmodel : ∀ id ∈ processIds values.length, assignment.model id = model)
    (generator : Generator) :
    deliver assignment p (flood values) generator =
      (divide (flood values)
          (model.sampleBatches p (values.length - 1) values.length generator).1,
        (model.sampleBatches p (values.length - 1) values.length generator).2) := by
  rcases Nat.lt_or_ge values.length 2 with hfew | hothers
  · match values with
    | [] => rfl
    | [value] =>
        have hnone : flood [value] = [] := rfl
        rw [hnone]
        simp only [List.length_singleton, Nat.sub_self, Model.sampleBatches, sample_zero]
        rfl
  · have hsenders := map_snd_zipIdx values
    have hnodup : ((values.zipIdx 1).map Prod.snd).Nodup := by
      rw [List.zipIdx_map_snd]
      exact List.nodup_range'
    have hprocesses : ∀ pair ∈ values.zipIdx 1, (pair.2 : Int) ∈ processIds values.length := by
      intro pair hpair
      rw [← hsenders]
      exact List.mem_map_of_mem hpair
    have hall := deliverFrom_floodOf p
      (fun _ => filter_sender_floodOf values.length hnodup) hprocesses hmodel generator
    rw [hsenders, List.length_zipIdx] at hall
    rw [deliver, asSet_senders_flood hothers]
    exact hall

/-! ## Flags of slots -/

/-- The items whose flag is set. -/
def flagged {α : Type} (items : List α) (flags : List Bool) : List α :=
  ((items.zip flags).filter (·.2)).map (·.1)

omit [Scalar R] in
/-- What arrives of a batch is what has its flag set, and what is lost is the rest. -/
theorem divide_eq_flagged (batch : List (Message R)) (flags : List Bool) :
    divide batch flags = ⟨flagged batch flags, flagged batch (flags.map (!·))⟩ := by
  induction batch generalizing flags with
  | nil => rfl
  | cons message batch ih =>
      cases flags with
      | nil => rfl
      | cons flag flags =>
          obtain ⟨hdelivered, hundelivered⟩ := Outcome.mk.inj (ih flags)
          cases flag with
          | true => exact congrArg₂ Outcome.mk (congrArg (message :: ·) hdelivered) hundelivered
          | false => exact congrArg₂ Outcome.mk hdelivered (congrArg (message :: ·) hundelivered)

theorem length_directedSlots (count : Nat) :
    (directedSlots count).length = count * (count - 1) := by
  have hbatches : ∀ sender ∈ processIds count,
      (((processIds count).filter (· != sender)).map fun receiver =>
        (sender, receiver)).length = count - 1 :=
    fun sender hsender => (List.length_map _).trans (length_receivers hsender)
  rw [directedSlots, List.length_flatMap, List.map_congr_left hbatches, List.map_const',
    List.sum_replicate_nat, length_processIds]

/-- Flags for the slots are sampled batch by batch, if an array can have the size of a
batch. -/
theorem slots_eq_sampleBatches (p : R) {count : Nat} (hpos : 1 ≤ count)
    (hsize : countError? model.itemBytes ((count : Int) - 1) = none) (generator : Generator) :
    model.slots p count generator =
      (.ok (model.sampleBatches p (count - 1) count generator).1,
        (model.sampleBatches p (count - 1) count generator).2) := by
  have hbatch : ((count : Int) - 1).toNat = count - 1 := by omega
  rw [Model.slots, if_neg (by omega), hsize, if_neg (by simp), hbatch, Int.toNat_natCast]

theorem isSignedWord_of_lt {n : Int} (hlow : 0 ≤ n) (hhigh : n < 2 ^ (63 : Nat)) :
    isSignedWord n = true := by
  simp only [isSignedWord, Bool.and_eq_true, decide_eq_true_eq]
  omega

/-- An array can have any size below `2 ^ 60`. -/
theorem countError?_itemBytes (model : Model) {size : Int} (hlow : 0 ≤ size)
    (hhigh : size < 2 ^ (60 : Nat)) : countError? model.itemBytes size = none := by
  have hbytes : model.itemBytes ≤ 8 := by
    cases model with
    | standard => exact Nat.le_refl 8
    | guaranteed minMessages scope => exact Nat.le_refl 8
    | broadcast mode => exact Nat.le_of_ble_eq_true rfl
  have hproduct : size * model.itemBytes ≤ size * 8 :=
    Int.mul_le_mul_of_nonneg_left (by omega) hlow
  have hnonneg : 0 ≤ size * model.itemBytes := Int.mul_nonneg hlow (Int.natCast_nonneg _)
  rw [countError?, isSignedWord_of_lt hlow (by omega), isSignedWord_of_lt hnonneg (by omega)]
  simp [Int.not_lt.mpr hlow]

/-- A model refuses slots only for a number of processes that no machine holds. -/
theorem slots_eq_error (p : R) {count : Nat} {error : CountError} (hpos : 1 ≤ count)
    (hsize : countError? model.itemBytes ((count : Int) - 1) = some error)
    (generator : Generator) :
    2 ^ (60 : Nat) < count ∧ (model.slots p count generator).1 = .error error := by
  constructor
  · by_contra hfew
    rw [countError?_itemBytes model (by omega) (by omega)] at hsize
    cases hsize
  · rw [Model.slots, if_neg (by omega), hsize, if_pos Option.isSome_some, Model.sampleOf, hsize]
    cases model <;> rfl

/-- Slots and messages are two views of one delivery model.

Take some values, one or more, whose processes all have the same model.  Their flood
fills every slot once, in the order of the slots.  Asked for the slots of so many
processes, the model gives a flag for each of them and takes the draws that delivering
the flood takes; delivered are the messages of the slots whose flag is set, and lost are
the others, both in the order of the flood.

An array too large for a machine is refused; no machine holds the values that it would
take. -/
theorem deliver_flood_slot_by_slot (p : R) {values : List R} (hvalues : values ≠ [])
    (hmodel : ∀ id ∈ processIds values.length, assignment.model id = model)
    (generator : Generator) :
    (flood values).map Message.ends = directedSlots values.length ∧
    (countError? model.itemBytes ((values.length : Int) - 1) = none →
      ∃ flags, flags.length = (directedSlots values.length).length ∧
        model.slots p values.length generator =
          (.ok flags, (deliver assignment p (flood values) generator).2) ∧
        (deliver assignment p (flood values) generator).1 =
          ⟨flagged (flood values) flags, flagged (flood values) (flags.map (!·))⟩) ∧
    ∀ error, countError? model.itemBytes ((values.length : Int) - 1) = some error →
      2 ^ (60 : Nat) < values.length ∧
        (model.slots p values.length generator).1 = .error error := by
  have hpos : 1 ≤ values.length := List.length_pos_iff.mpr hvalues
  refine ⟨map_ends_flood values, ?_, fun error hsize => slots_eq_error p hpos hsize generator⟩
  intro hsize
  refine ⟨(model.sampleBatches p (values.length - 1) values.length generator).1, ?_, ?_, ?_⟩
  · rw [length_sampleBatches, length_directedSlots]
  · rw [deliver_flood p values hmodel generator]
    exact slots_eq_sampleBatches p hpos hsize generator
  · rw [deliver_flood p values hmodel generator]
    exact divide_eq_flagged _ _

/-- Three processes that broadcast, each by a model of its own.  The draws let the first
and the third one be heard by all and the second one by nobody. -/
theorem broadcastTrio_delivered_slot_by_slot :
    let model := Model.broadcast .uniform
    let assignment : Assignment := ⟨3, .standard, [(1, model), (2, model), (3, model)]⟩
    let half : Float := Scalar.ofDraw (2 ^ (52 : Nat))
    (∀ id ∈ processIds 3, assignment.model id = model) ∧
      countError? model.itemBytes 2 = none ∧
      model.slots half 3 ⟨6, 1⟩ = (.ok [true, true, false, false, true, true],
        (deliver assignment half (flood [5, 6, 7]) ⟨6, 1⟩).2) ∧
      (deliver assignment half (flood [5, 6, 7]) ⟨6, 1⟩).1 =
        ⟨flagged (flood [5, 6, 7]) [true, true, false, false, true, true],
          flagged (flood [5, 6, 7]) [false, false, true, true, false, false]⟩ := by
  intro model assignment half
  have hmodel : ∀ id ∈ processIds 3, assignment.model id = model := by decide
  have hsize : countError? model.itemBytes 2 = none := by decide
  have hflags : (model.slots half 3 ⟨6, 1⟩).1 = .ok [true, true, false, false, true, true] := by
    decide +kernel
  have hvalues : ([5, 6, 7] : List Float) ≠ [] := List.cons_ne_nil _ _
  obtain ⟨flags, _, hslots, hdelivered⟩ :=
    (deliver_flood_slot_by_slot half hvalues hmodel ⟨6, 1⟩).2.1 hsize
  obtain rfl := Except.ok.inj (hflags.symm.trans (congrArg Prod.fst hslots))
  exact ⟨hmodel, hsize, hslots, hdelivered⟩

end LossyConsensus.Network
