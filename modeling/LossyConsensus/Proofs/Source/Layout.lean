/-
# Layouts of a protocol text

Blank lines and comments may be put in and taken out, content may move between
the line of its header and a line of its own, and sections that do not look at
each other may change places: the text stays one of the same protocol, or stays
one of none.
-/

import LossyConsensus.Proofs.Source.Header
import LossyConsensus.Proofs.Source.Protocol
import LossyConsensus.Proofs.Source.Rearrangement
import Mathlib.Logic.Relation

namespace LossyConsensus.Source

open LossyConsensus.Protocol LossyConsensus.Text

variable {lines lines' left : List Line}

/-! ## Protocols that are the same -/

/-- Protocols that differ at most in the order in which the names of their
settings were given. -/
structure SameProtocol (protocol protocol' : LossyConsensus.Protocol Float) : Prop where
  fields : protocol' = { protocol with settings := protocol'.settings }
  settings : Settings.Same protocol.settings protocol'.settings

theorem SameProtocol.refl (protocol : LossyConsensus.Protocol Float) :
    SameProtocol protocol protocol :=
  ⟨rfl, fun _ => rfl⟩

theorem SameProtocol.trans {first second third : LossyConsensus.Protocol Float}
    (h : SameProtocol first second) (h' : SameProtocol second third) :
    SameProtocol first third := by
  refine ⟨?_, fun name => (h.settings name).trans (h'.settings name)⟩
  rw [h'.fields, h.fields]

theorem SameSettings.withGuarantee {settings settings' : Settings Float}
    (h : SameSettings settings settings') :
    Settings.Same (withGuarantee settings) (withGuarantee settings') := by
  rw [Source.withGuarantee, Source.withGuarantee, h.values Settings.guaranteeName]
  split
  · exact h.values
  · exact h.values.set _ _

/-! ## Texts read through to the end -/

/-- A section that stands for itself keeps its place and its content. -/
theorem Relaid.exists_only {kind : Section} {part : Part}
    (halone : ∀ pair ∈ swappable, pair.2 ≠ kind)
    (hlines : Relaid lines lines') (hpart : part? [kind] lines = some part) :
    ∃ part', part? [kind] lines' = some part' ∧ texts part.body = texts part'.body ∧
      Relaid part.rest part'.rest := by
  have hnone : ∀ first second, Swappable first second → first ∉ [kind] := by
    intro first second hswap hmem
    rw [List.mem_singleton.mp hmem] at hswap
    exact halone _ hswap.symm rfl
  obtain ⟨part', hpart', _, hbody, hrest⟩ := hlines.exists_part? hnone hpart
  exact ⟨part', hpart', hbody, hrest⟩

/-- The state variable is read alike. -/
theorem readStateSection_relaid {last : Nat} (last' : Nat) {state : String × Option String}
    (hlines : Relaid lines lines') (h : readStateSection last lines = .ok (state, left)) :
    ∃ left', readStateSection last' lines' = .ok (state, left') ∧ Relaid left left' := by
  rw [readStateSection] at h
  split at h
  · cases h
  · next part hpart =>
    obtain ⟨part', hpart', hbody, hrest⟩ := hlines.exists_only (by decide) hpart
    split at h
    · next number text hline =>
      obtain ⟨other, rest, hbody', hnil⟩ := exists_line_of_texts_eq hbody hline
      obtain rfl := eq_nil_of_texts_eq hnil rfl
      split at h
      · next found hstate =>
        cases h
        refine ⟨part'.rest, ?_, hrest⟩
        simp only [readStateSection, hpart', hbody', hstate]
      · cases h
    · cases h

/-- A section that may be absent is read alike. -/
theorem readOptional_relaid {α : Type} {kind : Section} {absent content : α}
    {read : List Line → Except ParseError α} (halone : ∀ pair ∈ swappable, pair.2 ≠ kind)
    (hread : ∀ {body body'}, texts body = texts body' → Preserves (read body) (read body'))
    (hlines : Relaid lines lines')
    (h : readOptional kind absent read lines = .ok (content, left)) :
    ∃ left', readOptional kind absent read lines' = .ok (content, left') ∧ Relaid left left' := by
  rcases readOptional_eq_ok_iff.mp h with ⟨hnone, rfl, rfl⟩ | ⟨part, hpart, hfound, rfl⟩
  · have htogether : ExpectsTogether [kind] := by
      intro first second hswap hmem
      rw [List.mem_singleton.mp hmem] at hswap
      exact (halone _ hswap.symm rfl).elim
    have hnone' := hlines.part?_eq_none htogether hnone
    exact ⟨lines', readOptional_eq_ok_iff.mpr (.inl ⟨hnone', rfl, rfl⟩), hlines⟩
  · obtain ⟨part', hpart', hbody, hrest⟩ := hlines.exists_only halone hpart
    exact ⟨part'.rest, readOptional_eq_ok_iff.mpr
      (.inr ⟨part', hpart', hread hbody content hfound, rfl⟩), hrest⟩

theorem readProcesses_renumber {last : Nat} (last' number other : Nat) (lines' : List Line)
    {text : List Char} {count : Nat}
    (h : readProcesses last ((number, text) :: lines) = .ok (count, left)) :
    left = lines ∧ readProcesses last' ((other, text) :: lines') = .ok (count, lines') := by
  simp only [readProcesses] at h ⊢
  split at h
  · cases h
  · obtain ⟨found, hfound, h⟩ := bind_eq_ok.mp h
    split at h
    · cases h
    · next hpositive =>
      cases h
      refine ⟨rfl, bind_eq_ok.mpr ⟨count, hfound, ?_⟩⟩
      rw [if_neg hpositive]

/-- What is read after the first two lines is the same for each layout. -/
theorem readLines_relaid {first first' second second' : Line} (hfirst : first.2 = first'.2)
    (hsecond : second.2 = second'.2) (hlines : Relaid lines lines')
    {protocol : LossyConsensus.Protocol Float}
    (h : readLines first (second :: lines) = .ok protocol) :
    ∃ protocol', readLines first' (second' :: lines') = .ok protocol' ∧
      SameProtocol protocol protocol' := by
  obtain ⟨firstNumber, firstText⟩ := first
  obtain ⟨firstNumber', firstText'⟩ := first'
  obtain ⟨secondNumber, secondText⟩ := second
  obtain ⟨secondNumber', secondText'⟩ := second'
  obtain rfl : firstText = firstText' := hfirst
  obtain rfl : secondText = secondText' := hsecond
  generalize hlast : (((firstNumber', firstText) :: (secondNumber', secondText) ::
    lines').getLast?.getD (firstNumber', firstText)).1 = last'
  obtain ⟨reading, h, hdeclares⟩ := readLines_eq_ok_iff.mp h
  have hname' := readName_renumber firstNumber firstNumber' reading.name h.name
  obtain ⟨hafter, hprocesses'⟩ :=
    readProcesses_renumber last' secondNumber secondNumber' lines' h.processes
  obtain ⟨lines₂, hstate', hlines₂⟩ := readStateSection_relaid last' (hafter ▸ hlines) h.state
  obtain ⟨opening', lines₃, hopening', hlike, hlines₃⟩ :=
    readOpening_relaid (.refl _) hlines₂ h.opening
  have hchannel := h.channel
  rw [hlike.settings] at hchannel
  obtain ⟨settings', lines₄, hchannel', hsettings, hlines₄⟩ :=
    readChannelParts_relaid hlines₃ hchannel
  obtain ⟨lines₅, hmodels', hlines₅⟩ :=
    readOptional_relaid (by decide) (fun h => readModels_renumber h []) hlines₄ h.models
  have hphases := h.phases
  rw [hsettings.declared] at hphases
  obtain ⟨lines₆, hphases', hlines₆⟩ :=
    readOptional_relaid (by decide) (fun h => readPhases_renumber _ _ h) hlines₅ hphases
  obtain ⟨lines₇, hmetrics', hlines₇⟩ :=
    readOptional_relaid (by decide) readMetrics_renumber hlines₆ h.metrics
  obtain rfl := hlines₇.eq_nil rfl
  let reading' : Reading :=
    { reading with
      afterProcesses := lines', afterState := lines₂, opening := opening', afterOpening := lines₃
      settings := settings', afterChannel := lines₄, afterModels := lines₅, afterPhases := lines₆ }
  have hread : reading'.Of last' (firstNumber', firstText) ((secondNumber', secondText) :: lines') :=
    { name := hname', processes := hprocesses', state := hstate', opening := hopening'
      check := hlike.check_eq_ok h.check last' lines₃, channel := hchannel', models := hmodels'
      phases := hphases', metrics := hmetrics' }
  have hdeclares' := hdeclares.with_settings (Source.withGuarantee settings')
  have hsame : SameProtocol protocol { protocol with settings := withGuarantee settings' } := by
    refine ⟨rfl, ?_⟩
    rw [hdeclares.eq]
    exact hsettings.withGuarantee
  refine ⟨_, readLines_eq_ok_iff.mpr ⟨reading', hlast ▸ hread, ?_⟩, hsame⟩
  have hdeclaration :
      { reading.declaration with settings := withGuarantee settings' } = reading'.declaration := by
    simp only [Reading.declaration, reading', hlike.values, hlike.rule]
  exact hdeclaration ▸ hdeclares'

end LossyConsensus.Source
