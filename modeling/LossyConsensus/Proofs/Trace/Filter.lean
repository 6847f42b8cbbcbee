/-
# Filtering records

Records can be cut down to one round, and to what touches one process.  The two cuts do
not get in each other's way, and a cut that has been made changes nothing more.  Of a
record, the cut to a process keeps the messages that the process has sent or received
where they stand, and all that is said of the round as a whole.
-/

import LossyConsensus.Trace.Record
import Mathlib.Data.List.Forall2

namespace LossyConsensus.Trace

variable {R : Type} {process : Int}

/-- The messages of a record, each with its receiver ahead of its sender and its value, in
the order of the inboxes and within each inbox. -/
def Record.messages (record : Record R) : List (Int × Int × R) :=
  record.inboxes.flatMap fun (receiver, inbox) => inbox.map (receiver, ·)

/-- Whether a process is the receiver or the sender of a message. -/
def touches (process : Int) (message : Int × Int × R) : Bool :=
  message.1 == process || message.2.1 == process

/-- What is kept of a record about a process: the messages that the process has received
or sent, each in its inbox and in their order, and the flag of the process.  No inbox is
empty but perhaps its own, which is kept as it is.  All other fields stay. -/
structure Record.KeptAbout (process : Int) (record kept : Record R) : Prop where
  messages : kept.messages = record.messages.filter (touches process)
  receivers : (kept.inboxes.map (·.1)).Sublist (record.inboxes.map (·.1))
  own : ∀ inbox, (process, inbox) ∈ kept.inboxes ↔ (process, inbox) ∈ record.inboxes
  nonempty : ∀ receiver, (receiver, []) ∈ kept.inboxes → receiver = process
  flags : kept.flags = record.flags.filter fun (id, _) => id == process
  rest : kept = { record with inboxes := kept.inboxes, flags := kept.flags }

/-! ## Inboxes -/

/-- An inbox cut down to what touches a process. -/
def inboxAbout (process : Int) (entry : Int × List (Int × R)) : Int × List (Int × R) :=
  (entry.1, if entry.1 == process then entry.2
    else entry.2.filter fun (sender, _) => sender == process)

/-- Whether an inbox is kept: it is that of the process, or it holds something. -/
def isKept (process : Int) (entry : Int × List (Int × R)) : Bool :=
  !entry.2.isEmpty || entry.1 == process

theorem inboxes_about (process : Int) (record : Record R) :
    (record.about process).inboxes =
      (record.inboxes.map (inboxAbout process)).filter (isKept process) := rfl

theorem inboxAbout_own (inbox : List (Int × R)) :
    inboxAbout process (process, inbox) = (process, inbox) := by
  rw [inboxAbout, beq_self_eq_true, if_pos rfl]

/-- An inbox that has been cut down stays as it is. -/
theorem inboxAbout_inboxAbout (process : Int) (entry : Int × List (Int × R)) :
    inboxAbout process (inboxAbout process entry) = inboxAbout process entry := by
  rw [inboxAbout, inboxAbout]
  split
  · rfl
  · rw [List.filter_filter]
    simp only [Bool.and_self]

/-- What an inbox keeps are the messages that touch the process. -/
theorem map_inboxAbout (process receiver : Int) (inbox : List (Int × R)) :
    (inboxAbout process (receiver, inbox)).2.map (receiver, ·) =
      (inbox.map (receiver, ·)).filter (touches process) := by
  rw [inboxAbout, List.filter_map]
  cases h : receiver == process with
  | true => simp [touches, Function.comp_def, h]
  | false => simp [touches, Function.comp_def, h]

/-- An inbox that is not kept has no messages left. -/
theorem eq_nil_of_not_isKept {entry : Int × List (Int × R)} (h : isKept process entry = false) :
    entry.2 = [] := by
  rw [isKept, Bool.or_eq_false_iff, Bool.not_eq_false'] at h
  exact List.isEmpty_iff.mp h.1

/-! ## One record -/

theorem messages_about (process : Int) (record : Record R) :
    (record.about process).messages = record.messages.filter (touches process) := by
  rw [Record.messages, inboxes_about, Record.messages]
  induction record.inboxes with
  | nil => rfl
  | cons entry rest ih =>
      obtain ⟨receiver, inbox⟩ := entry
      rw [List.flatMap_cons, List.filter_append, ← ih, ← map_inboxAbout, List.map_cons]
      cases hkept : isKept process (inboxAbout process (receiver, inbox)) with
      | true => rw [List.filter_cons_of_pos hkept, List.flatMap_cons]; rfl
      | false =>
          rw [List.filter_cons_of_neg (by simp [hkept]), eq_nil_of_not_isKept hkept]
          rfl

/-- Cutting a record down to a process keeps what touches the process. -/
theorem keptAbout_about (process : Int) (record : Record R) :
    record.KeptAbout process (record.about process) := by
  refine ⟨messages_about process record, ?_, ?_, ?_, rfl, rfl⟩
  · have hreceivers : (record.inboxes.map (inboxAbout process)).map (·.1) =
        record.inboxes.map (·.1) := by
      rw [List.map_map]
      rfl
    rw [inboxes_about, ← hreceivers]
    exact List.filter_sublist.map _
  · intro inbox
    rw [inboxes_about, List.mem_filter, List.mem_map]
    constructor
    · rintro ⟨⟨⟨receiver, inbox'⟩, hmem, heq⟩, _⟩
      obtain rfl : receiver = process := congrArg Prod.fst heq
      rw [inboxAbout_own] at heq
      exact heq ▸ hmem
    · intro hmem
      refine ⟨⟨_, hmem, inboxAbout_own inbox⟩, ?_⟩
      rw [isKept, beq_self_eq_true, Bool.or_true]
  · intro receiver hmem
    have hkept := (List.mem_filter.mp (inboxes_about process record ▸ hmem)).2
    exact beq_iff_eq.mp hkept

/-- A record that has been cut down to a process stays as it is. -/
theorem about_about (process : Int) (record : Record R) :
    (record.about process).about process = record.about process := by
  have hinboxes : ((record.about process).about process).inboxes =
      (record.about process).inboxes := by
    have hfixed : ∀ entry ∈ (record.about process).inboxes,
        inboxAbout process entry = entry := by
      intro entry hentry
      obtain ⟨original, _, rfl⟩ := List.mem_map.mp (List.mem_filter.mp hentry).1
      exact inboxAbout_inboxAbout process original
    rw [inboxes_about, List.map_congr_left hfixed, List.map_id', inboxes_about,
      List.filter_filter]
    simp only [Bool.and_self]
  have hflags : ((record.about process).about process).flags = (record.about process).flags := by
    rw [(keptAbout_about process (record.about process)).flags,
      (keptAbout_about process record).flags, List.filter_filter]
    simp only [Bool.and_self]
  rw [(keptAbout_about process (record.about process)).rest, hinboxes, hflags]

/-! ## All records -/

/-- Records can be chosen by their round before or after they are cut down. -/
theorem atRound_map_about (process : Int) (round : Option Int) (records : List (Record R)) :
    atRound round (records.map (Record.about process)) =
      (atRound round records).map (Record.about process) :=
  List.filter_map

theorem atRound_atRound (round : Option Int) (records : List (Record R)) :
    atRound round (atRound round records) = atRound round records := by
  rw [atRound, atRound, List.filter_filter]
  simp only [Bool.and_self]

theorem atRound_none (records : List (Record R)) : atRound none records = records :=
  List.filter_eq_self.mpr fun _ _ => rfl

/-- Filtering by a process and by a round comes to the same in either order and at once.
Filtering again in the same way changes nothing.  And filtering by a process keeps, of
each of the records that stand without it, what is about the process. -/
theorem filters_commute_and_keep (records : List (Record R)) :
    (∀ process round : Int,
      filter none (some round) (filter (some process) none records) =
          filter (some process) (some round) records ∧
        filter (some process) none (filter none (some round) records) =
          filter (some process) (some round) records) ∧
    (∀ process round : Option Int,
      filter process round (filter process round records) = filter process round records) ∧
    ∀ (process : Int) (round : Option Int),
      List.Forall₂ (Record.KeptAbout process) (filter none round records)
        (filter (some process) round records) := by
  refine ⟨?_, ?_, ?_⟩
  · intro process round
    simp only [filter, atRound_none, atRound_map_about, and_self]
  · intro process round
    cases process with
    | none => exact atRound_atRound round records
    | some process =>
        simp only [filter, atRound_map_about, atRound_atRound, List.map_map]
        exact List.map_congr_left fun record _ => about_about process record
  · intro process round
    simp only [filter]
    exact List.forall₂_map_right_iff.mpr
      (List.forall₂_same.mpr fun record _ => keptAbout_about process record)

/-- What the first of three processes sends and receives: it keeps its own inbox, though
it is empty, while the third process has nothing from it. -/
example :
    let record : Record Nat := {
      round := 1, before := [5, 6, 7], after := [5, 5, 6], discrepancy := 1, delivered := 3
      inboxes := [(1, []), (2, [(3, 7), (1, 5)]), (3, [(2, 6)])]
      flags := [(1, false), (2, true), (3, true)] }
    filter (some 1) (some 1) [record] =
      [{ record with inboxes := [(1, []), (2, [(1, 5)])], flags := [(1, false)] }] := by
  decide

end LossyConsensus.Trace
