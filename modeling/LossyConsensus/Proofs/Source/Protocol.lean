/-
# What a protocol text declares

Of a protocol that was read, every name that its rules use is set to a number,
and the initial rule combines numbers, such names and the number of the process
only.  Parameters may follow the initial rule in the text, so this is decided
when both have been read; the sections after them declare nothing further.

A protocol is read part after part.  What each part is read as, and which lines
it leaves, is stated once here; whatever is shown of protocols that were read
starts from there.
-/

import LossyConsensus.Proofs.Source.Rearrangement
import LossyConsensus.Proofs.Source.Scope

namespace LossyConsensus.Source

open LossyConsensus.Protocol LossyConsensus.Text

/-! ## Opening sections -/

theorem Opening.Takes.areNumbers {opening next : Opening} {v : Vocabulary} {processes : Nat}
    {part : Part} (h : opening.Takes v processes part next)
    (hnumbers : Settings.AreNumbers opening.settings) : Settings.AreNumbers next.settings := by
  cases h with
  | parameters _ _ hbody =>
      refine foldlM_induction ?_ hnumbers hbody
      intro settings line next hold hnext
      obtain ⟨⟨name, value⟩, _, hnext⟩ := bind_eq_ok.mp hnext
      obtain rfl := pure_eq_ok.mp hnext
      exact hold.set (.inr ⟨value, rfl⟩)
  | values => exact hnumbers
  | rule => exact hnumbers

/-- The opening sections set names to numbers only. -/
theorem areNumbers_of_readOpening {v : Vocabulary} {processes : Nat} {opening last : Opening}
    {lines left : List Line} (hnumbers : Settings.AreNumbers opening.settings)
    (h : readOpening v processes opening lines = .ok (last, left)) :
    Settings.AreNumbers last.settings := by
  have hloops := loops_of_readOpening h
  clear h
  induction hloops with
  | done => exact hnumbers
  | step hpart hstep _ ih =>
      have htakes := (Opening.read_eq_ok_iff (outline_of_part? hpart).1).mp hstep
      exact ih (htakes.areNumbers hnumbers)

/-! ## Channel and roles -/

theorem declared_of_channelLoops {processes : Nat} {state last : List Section × Settings Float}
    {lines left : List Line}
    (h : Loops channelKinds (takeChannelPart processes) state lines last left)
    (hnumbers : Settings.AreNumbers state.2) :
    Settings.AreNumbers last.2 ∧ Settings.declared last.2 = Settings.declared state.2 := by
  induction h with
  | done => exact ⟨hnumbers, rfl⟩
  | step _ hstep _ ih =>
      obtain ⟨_, line, name, value, _, hentry, rfl⟩ := takeChannelPart_eq_ok_iff.mp hstep
      have hreserved : Settings.isReserved name = true := by
        rw [name_of_channelEntry hentry]
        split
        · rfl
        · rfl
      obtain ⟨hafter, hsame⟩ := ih (hnumbers.set (.inl hreserved))
      exact ⟨hafter, hsame.trans (Settings.declared_set_of_isReserved hreserved _ _)⟩

/-- The channel and the roles leave the declared names alone. -/
theorem declared_of_readChannelParts {processes : Nat} {seen : List Section}
    {settings settings' : Settings Float} {lines left : List Line}
    (hnumbers : Settings.AreNumbers settings)
    (h : readChannelParts processes seen settings lines = .ok (settings', left)) :
    Settings.AreNumbers settings' ∧ Settings.declared settings' = Settings.declared settings := by
  obtain ⟨_, hloops⟩ := loops_of_readChannelParts h
  exact declared_of_channelLoops hloops hnumbers

theorem declared_withGuarantee {settings : Settings Float}
    (hnumbers : Settings.AreNumbers settings) :
    Settings.AreNumbers (withGuarantee settings) ∧
      Settings.declared (withGuarantee settings) = Settings.declared settings := by
  rw [withGuarantee]
  split
  · exact ⟨hnumbers, rfl⟩
  · exact ⟨hnumbers.set (.inl rfl), Settings.declared_set_of_isReserved rfl _ _⟩

/-! ## Declarations -/

/-- A declaration is that of a protocol: it says how the values begin, and there are
processes, metrics and models, at most one phase at the end and at most one model for
all processes. -/
structure Declares (declaration : Declaration Float) (protocol : LossyConsensus.Protocol Float) :
    Prop where
  someProcess : ¬ declaration.processes < 1
  initial : declaration.initial = .ok protocol.initial
  someMetric : ¬ declaration.metrics.isEmpty = true
  someModel : ¬ declaration.models.isEmpty = true
  oneEnd : ¬ 1 < (declaration.phases.filter Phase.isEnd).length
  oneGlobalModel : ¬ 1 < (declaration.models.filter (·.process.isNone)).length
  eq : protocol =
    { name := declaration.name
      processes := declaration.processes.toNat
      initial := protocol.initial
      phases := declaration.phases
      metrics := declaration.metrics
      settings := declaration.settings
      models := declaration.models
      stateVar := declaration.stateVar
      domain := declaration.domain }

theorem check_eq_ok_iff {declaration : Declaration Float}
    {protocol : LossyConsensus.Protocol Float} :
    declaration.check = .ok protocol ↔ Declares declaration protocol := by
  constructor
  · intro h
    rw [Declaration.check] at h
    obtain ⟨hprocesses, h⟩ := guarded_eq_ok.mp h
    obtain ⟨initial, hinitial, h⟩ := bind_eq_ok.mp h
    obtain ⟨hmetric, h⟩ := guarded_eq_ok.mp h
    obtain ⟨hmodel, h⟩ := guarded_eq_ok.mp h
    obtain ⟨hend, h⟩ := guarded_eq_ok.mp h
    obtain ⟨hglobal, h⟩ := guarded_eq_ok.mp h
    obtain rfl := pure_eq_ok.mp h
    exact ⟨hprocesses, hinitial, hmetric, hmodel, hend, hglobal, rfl⟩
  · rintro ⟨hprocesses, hinitial, hmetric, hmodel, hend, hglobal, heq⟩
    rw [Declaration.check]
    refine guarded_eq_ok.mpr ⟨hprocesses, bind_eq_ok.mpr ⟨_, hinitial, ?_⟩⟩
    refine guarded_eq_ok.mpr ⟨hmetric, guarded_eq_ok.mpr ⟨hmodel, ?_⟩⟩
    exact guarded_eq_ok.mpr ⟨hend, guarded_eq_ok.mpr ⟨hglobal, pure_eq_ok.mpr heq.symm⟩⟩

/-- The order of the settings has no part in whether a declaration is that of a
protocol. -/
theorem Declares.with_settings {declaration : Declaration Float}
    {protocol : LossyConsensus.Protocol Float} (h : Declares declaration protocol)
    (settings : Settings Float) :
    Declares { declaration with settings } { protocol with settings } :=
  { h with eq := congrArg (fun found => { found with settings }) h.eq }

theorem rule_of_initial_eq_ok {declaration : Declaration Float} {rule : Expr Float}
    (h : declaration.initial = .ok (.rule rule)) : declaration.rule = some rule := by
  rw [Declaration.initial] at h
  split at h
  · split at h
    · cases h
    · cases h
  · next heq =>
    cases h
    exact heq
  · cases h

/-! ## Whole texts -/

/-- What the parts of a protocol text are read as, one after the other, and the lines
that each of them leaves. -/
structure Reading where
  name : String
  processes : Nat
  afterProcesses : List Line
  state : String × Option String
  afterState : List Line
  opening : Opening
  afterOpening : List Line
  settings : Settings Float
  afterChannel : List Line
  models : List ModelSpec
  afterModels : List Line
  phases : List (Phase Float)
  afterPhases : List Line
  metrics : Metrics

namespace Reading

/-- What the reader knows when it comes to the rules. -/
def vocabulary (reading : Reading) : Vocabulary :=
  { stateVar := reading.state.1, processes := some (reading.processes : Int) }

/-- What the parts declare together. -/
def declaration (reading : Reading) : Declaration Float :=
  { name := reading.name
    processes := reading.processes
    values := reading.opening.values
    rule := reading.opening.rule.map (·.2)
    phases := reading.phases
    metrics := reading.metrics
    settings := withGuarantee reading.settings
    models := modelsOrStandard reading.models
    stateVar := reading.state.1
    domain := reading.state.2 }

/-- The lines of a text are read so, to the last one; errors about what is missing at the
end would name its number. -/
structure Of (reading : Reading) (last : Nat) (first : Line) (lines : List Line) : Prop where
  name : readName first = .ok reading.name
  processes : readProcesses last lines = .ok (reading.processes, reading.afterProcesses)
  state : readStateSection last reading.afterProcesses = .ok (reading.state, reading.afterState)
  opening : readOpening reading.vocabulary reading.processes {} reading.afterState =
    .ok (reading.opening, reading.afterOpening)
  check : reading.opening.check last reading.afterOpening = .ok ()
  channel : readChannelParts reading.processes [] reading.opening.settings reading.afterOpening =
    .ok (reading.settings, reading.afterChannel)
  models : readOptional .model [] (readModels reading.processes []) reading.afterChannel =
    .ok (reading.models, reading.afterModels)
  phases : readOptional .updateRule []
    (readPhases { reading.vocabulary with declared := some (Settings.declared reading.settings) }
      false) reading.afterModels = .ok (reading.phases, reading.afterPhases)
  metrics : readOptional .metrics .both readMetrics reading.afterPhases =
    .ok (reading.metrics, [])

end Reading

/-- A text is that of a protocol if all its lines are read, and declare the protocol. -/
theorem readLines_eq_ok_iff {first : Line} {lines : List Line}
    {protocol : LossyConsensus.Protocol Float} :
    readLines first lines = .ok protocol ↔
      ∃ reading : Reading,
        reading.Of ((first :: lines).getLast?.getD first).1 first lines ∧
        Declares reading.declaration protocol := by
  constructor
  · intro h
    rw [readLines] at h
    obtain ⟨name, hname, h⟩ := bind_eq_ok.mp h
    obtain ⟨⟨processes, afterProcesses⟩, hprocesses, h⟩ := bind_eq_ok.mp h
    obtain ⟨⟨state, afterState⟩, hstate, h⟩ := bind_eq_ok.mp h
    obtain ⟨⟨opening, afterOpening⟩, hopening, h⟩ := bind_eq_ok.mp h
    obtain ⟨_, hcheck, h⟩ := bind_eq_ok.mp h
    obtain ⟨⟨settings, afterChannel⟩, hchannel, h⟩ := bind_eq_ok.mp h
    obtain ⟨⟨models, afterModels⟩, hmodels, h⟩ := bind_eq_ok.mp h
    obtain ⟨⟨phases, afterPhases⟩, hphases, h⟩ := bind_eq_ok.mp h
    obtain ⟨⟨metrics, left⟩, hmetrics, h⟩ := bind_eq_ok.mp h
    dsimp only at h
    split at h
    · cases h
    · exact ⟨⟨name, processes, afterProcesses, state, afterState, opening, afterOpening, settings,
        afterChannel, models, afterModels, phases, afterPhases, metrics⟩,
        ⟨hname, hprocesses, hstate, hopening, hcheck, hchannel, hmodels, hphases, hmetrics⟩,
        check_eq_ok_iff.mp (mapError_eq_ok.mp h)⟩
  · rintro ⟨reading, h, hdeclares⟩
    rw [readLines]
    refine bind_eq_ok.mpr ⟨_, h.name, bind_eq_ok.mpr ⟨_, h.processes, bind_eq_ok.mpr
      ⟨_, h.state, bind_eq_ok.mpr ⟨_, h.opening, bind_eq_ok.mpr ⟨_, h.check, bind_eq_ok.mpr
        ⟨_, h.channel, bind_eq_ok.mpr ⟨_, h.models, bind_eq_ok.mpr ⟨_, h.phases, bind_eq_ok.mpr
          ⟨_, h.metrics, ?_⟩⟩⟩⟩⟩⟩⟩⟩⟩
    exact mapError_eq_ok.mpr (check_eq_ok_iff.mpr hdeclares)

/-- A section that may be absent gives its default, or what its lines are read as. -/
theorem readOptional_eq_ok_iff {α : Type} {kind : Section} {absent content : α}
    {read : List Line → Except ParseError α} {lines left : List Line} :
    readOptional kind absent read lines = .ok (content, left) ↔
      (part? [kind] lines = none ∧ content = absent ∧ left = lines) ∨
        ∃ part, part? [kind] lines = some part ∧ read part.body = .ok content ∧
          left = part.rest := by
  rw [readOptional]
  cases part? [kind] lines with
  | none => simp [eq_comm]
  | some part =>
      constructor
      · intro h
        obtain ⟨found, hread, h⟩ := bind_eq_ok.mp h
        cases h
        exact .inr ⟨part, rfl, hread, rfl⟩
      · rintro (⟨hnone, _⟩ | ⟨_, hpart, hread, rfl⟩)
        · cases hnone
        · cases hpart
          exact bind_eq_ok.mpr ⟨content, hread, rfl⟩

/-- A protocol whose rules use declared names only, each of which is set to a
number, and whose initial rule combines such names, numbers and the number of
the process. -/
structure WellScoped (protocol : LossyConsensus.Protocol Float) : Prop where
  numbers : Settings.AreNumbers protocol.settings
  initial : ∀ rule, protocol.initial = .rule rule →
    initialFault? ("i" :: Settings.declared protocol.settings) rule = none
  phases : ∀ phase ∈ protocol.phases, phase.rule.Scoped (Settings.declared protocol.settings)

theorem wellScoped_of_readLines {first : Line} {lines : List Line}
    {protocol : LossyConsensus.Protocol Float} (h : readLines first lines = .ok protocol) :
    WellScoped protocol := by
  obtain ⟨reading, h, hdeclares⟩ := readLines_eq_ok_iff.mp h
  have hnone : Settings.AreNumbers ({} : Opening).settings := by
    intro name hname
    cases hname
  have hnumbers := areNumbers_of_readOpening hnone h.opening
  obtain ⟨hsettings, hsame⟩ := declared_of_readChannelParts hnumbers h.channel
  obtain ⟨hfinal, hdeclared⟩ := declared_withGuarantee hsettings
  have hgiven : protocol.settings = withGuarantee reading.settings :=
    congrArg LossyConsensus.Protocol.settings hdeclares.eq
  have hkept : protocol.phases = reading.phases :=
    congrArg LossyConsensus.Protocol.phases hdeclares.eq
  refine ⟨?_, ?_, ?_⟩
  · rw [hgiven]
    exact hfinal
  · intro rule hrule
    have hinitial := hdeclares.initial
    rw [hrule] at hinitial
    rw [hgiven, hdeclared, hsame]
    exact (Opening.check_eq_ok_iff.mp h.check).2 rule (rule_of_initial_eq_ok hinitial)
  · rw [hkept, hgiven, hdeclared]
    rcases readOptional_eq_ok_iff.mp h.phases with ⟨_, hempty, _⟩ | ⟨part, _, hcontent, _⟩
    · rw [hempty]
      intro phase hphase
      cases hphase
    · exact scoped_readPhases rfl hcontent

/-- Whatever text is read as a protocol, the protocol is well scoped. -/
theorem wellScoped_of_readProtocol {text : String} {protocol : LossyConsensus.Protocol Float}
    (h : readProtocol text = .ok protocol) : WellScoped protocol := by
  rw [readProtocol] at h
  split at h
  · cases h
  · exact wellScoped_of_readLines h

end LossyConsensus.Source
