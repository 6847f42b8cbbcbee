/-
# Reserved settings

The leader and the channel guarantee are stored among the settings, under two
reserved names.  A ROLES section sets the leader to a process and a CHANNEL
section sets one of the three guarantees, whatever else the text says.  Without
the section, the last parameter of the reserved name takes its place, if there
is one: the integer part of its value counts as the leader, and the guarantee is
a number that is no guarantee at all.
-/

import LossyConsensus.Proofs.Simulation.Run
import LossyConsensus.Proofs.Source.Conversion
import LossyConsensus.Proofs.Source.Header
import LossyConsensus.Proofs.Source.Protocol
import LossyConsensus.Proofs.Source.Rearrangement
import LossyConsensus.Protocol.Map

namespace LossyConsensus.Source

open LossyConsensus.Decimal LossyConsensus.Protocol LossyConsensus.Text

variable {v : Vocabulary} {processes : Nat} {lines left : List Line} {name : String}
  {settings changed : Settings Float}

/-! ## What the sections say -/

/-- The sections of a protocol text, each with its lines of content. -/
def sectionsOf (text : String) : List SectionText :=
  (outline (texts (contentLines text.toList))).2

/-- No section is of this kind. -/
def Lacks (sections : List SectionText) (kind : Section) : Prop :=
  ∀ part ∈ sections, part.1 ≠ kind

instance (sections : List SectionText) (kind : Section) : Decidable (Lacks sections kind) :=
  inferInstanceAs (Decidable (∀ part ∈ sections, part.1 ≠ kind))

/-- A line of ROLES that names a leader: the word, an equals sign and the number
of a process, with blanks between them. -/
inductive NamesLeader (line : List Char) (id : Int) : Prop
  | intro {gap before digits after : List Char} (hgap : Blanks gap) (hbefore : Blanks before)
      (hafter : Blanks after) (hid : IsId (some digitLimit) digits id)
      (hline : lower line = "leader".toList ++ gap ++ '=' :: (before ++ digits ++ after))

/-- A line of CHANNEL that names a guarantee, in any case and with any blanks
between its words. -/
inductive NamesGuarantee (line : List Char) : Guarantee → Prop
  | none (hline : squeeze (lower line) = "stochastic".toList) : NamesGuarantee line .none
  | atLeastOne {written : List Char} (hwritten : written.filter (· != ' ') = "at_least(1)".toList)
      (hline : squeeze (lower line) = "stochastic with guarantee ".toList ++ written) :
      NamesGuarantee line .atLeastOne
  | majority {written : List Char} (hwritten : written.filter (· != ' ') = "majority".toList)
      (hline : squeeze (lower line) = "stochastic with guarantee ".toList ++ written) :
      NamesGuarantee line .majority

/-- The lines of all parameters. -/
def parameterLines (sections : List SectionText) : List (List Char) :=
  (sections.filter (·.1 == .parameters)).flatMap (·.2)

/-- The value that a line gives to a parameter, if it is one of that name. -/
def parameterValue? (name : String) (line : List Char) : Option Float := do
  let (other, digits) ← parameterParts? line
  if other = name then readReal? digits else none

/-- The value that the last of some lines with a parameter of this name gives
it. -/
def lastParameter? (name : String) (lines : List (List Char)) : Option Float :=
  lines.reverse.findSome? (parameterValue? name)

theorem namesLeader_of_readLeader {number : Nat} {line : List Char} {id : Nat}
    (h : readLeader processes (number, line) = .ok id) :
    NamesLeader line id ∧ 1 ≤ id ∧ id ≤ processes := by
  rw [readLeader] at h
  split at h
  · cases h
  · next digits hfound =>
    obtain ⟨leader, hread, h⟩ := bind_eq_ok.mp h
    split at h
    · next hrange =>
      cases h
      rw [Bool.and_eq_true, decide_eq_true_eq, decide_eq_true_eq] at hrange
      refine ⟨?_, hrange⟩
      obtain ⟨rest, hword, hfound⟩ := Option.bind_eq_some_iff.mp hfound
      obtain ⟨written, hsign, hfound⟩ := Option.bind_eq_some_iff.mp hfound
      obtain ⟨hdigits, before, after, hbefore, hafter, rfl⟩ := exists_of_digitsAtEnd? hfound
      obtain ⟨gap, hgap, hrest⟩ := exists_trimLeft rest
      obtain ⟨hshort, _, hvalue⟩ := readInteger_eq_ok_iff.mp (mapError_eq_ok.mp
        (mapError_eq_ok.mp hread))
      rw [trimNumeral_eq (trimmed_of_isNumber hdigits)] at hshort hvalue
      have hid : IsId (some digitLimit) digits id := by
        refine ⟨hdigits, ?_, congrArg Int.ofNat hvalue.symm, by omega⟩
        intro most hmost
        cases hmost
        exact hshort
      refine .intro hgap hbefore hafter hid ?_
      rw [after?_eq_some_iff.mp hword, hrest, after?_eq_some_iff.mp hsign, List.append_assoc]
      rfl
    · cases h

theorem namesGuarantee_of_readChannel {number : Nat} {line : List Char} {guarantee : Guarantee}
    (h : readChannel processes (number, line) = .ok guarantee) :
    NamesGuarantee line guarantee := by
  rw [readChannel] at h
  dsimp only at h
  split at h
  · next hplain =>
    cases h
    exact .none (beq_iff_eq.mp hplain)
  · split at h
    · cases h
    · next written hfound =>
      have hline := after?_eq_some_iff.mp (Option.eq_some_of_filter_eq_some hfound)
      split at h
      · next hword =>
        cases h
        refine .atLeastOne ?_ hline
        rw [← String.toList_ofList (l := written.filter _), beq_iff_eq.mp hword]
      · split at h
        · next hword =>
          split at h
          · cases h
          · cases h
            refine .majority ?_ hline
            rw [← String.toList_ofList (l := written.filter _), beq_iff_eq.mp hword]
        · cases h

/-! ## Parameters -/

theorem lastParameter?_append (name : String) (before after : List (List Char)) :
    lastParameter? name (before ++ after) =
      (lastParameter? name after).or (lastParameter? name before) := by
  rw [lastParameter?, List.reverse_append, List.findSome?_append]
  rfl

theorem lastParameter?_singleton (name : String) (line : List Char) :
    lastParameter? name [line] = parameterValue? name line := by
  rw [lastParameter?, List.reverse_singleton, List.findSome?_cons]
  cases parameterValue? name line <;> rfl

/-- Reading a parameter sets its name and no other. -/
theorem get?_setParameter {line : Line} (h : setParameter settings line = .ok changed) :
    Settings.get? changed name =
      ((parameterValue? name line.2).map Setting.real).or (Settings.get? settings name) := by
  obtain ⟨number, text⟩ := line
  obtain ⟨⟨other, value⟩, hread, h⟩ := bind_eq_ok.mp h
  obtain rfl := pure_eq_ok.mp h
  rw [readParameter] at hread
  split at hread
  · cases hread
  · next found digits hparts =>
    split at hread
    · next hvalue =>
      cases hread
      rw [Settings.get?_set, parameterValue?, hparts]
      by_cases hname : name = other
      · subst hname
        rw [if_pos rfl]
        simp [hvalue]
      · rw [if_neg hname]
        simp [Ne.symm hname]
    · cases hread

theorem get?_setParameters (h : lines.foldlM setParameter settings = .ok changed) :
    Settings.get? changed name =
      ((lastParameter? name (texts lines)).map Setting.real).or (Settings.get? settings name) := by
  induction lines generalizing settings with
  | nil =>
      obtain rfl := pure_eq_ok.mp h
      rfl
  | cons line lines ih =>
      obtain ⟨next, hnext, hrest⟩ := bind_eq_ok.mp h
      have hcons : texts (line :: lines) = [line.2] ++ texts lines := rfl
      rw [ih hrest, get?_setParameter hnext, hcons, lastParameter?_append,
        lastParameter?_singleton]
      cases lastParameter? name (texts lines) <;> rfl

theorem parameterLines_cons (first : SectionText) (sections : List SectionText) :
    parameterLines (first :: sections) =
      (if first.1 = .parameters then first.2 else []) ++ parameterLines sections := by
  rw [parameterLines, List.filter_cons]
  by_cases h : first.1 = .parameters
  · rw [if_pos (beq_iff_eq.mpr h), if_pos h]
    rfl
  · rw [if_neg (by simpa using h), if_neg h]
    rfl

theorem parameterLines_append (before after : List SectionText) :
    parameterLines (before ++ after) = parameterLines before ++ parameterLines after := by
  rw [parameterLines, List.filter_append, List.flatMap_append]
  rfl

theorem parameterLines_eq_nil {sections : List SectionText}
    (h : ∀ part ∈ sections, part.1 ≠ .parameters) : parameterLines sections = [] := by
  rw [parameterLines, List.filter_eq_nil_iff.mpr]
  · rfl
  · simpa using h

/-! ## The sections that a loop takes -/

/-- Of some lines, the sections that have been taken from the front. -/
structure Takes (expected : List Section) (lines left : List Line) (taken : List SectionText) :
    Prop where
  sections : (outline (texts lines)).2 = taken ++ (outline (texts left)).2
  kinds : ∀ part ∈ taken, part.1 ∈ expected

theorem Takes.nil {expected : List Section} : Takes expected lines lines [] :=
  ⟨rfl, by simp⟩

theorem Takes.cons {expected : List Section} {part : Part} {taken : List SectionText}
    (hpart : part? expected lines = some part) (h : Takes expected part.rest left taken) :
    Takes expected lines left ((part.kind, texts part.body) :: taken) := by
  obtain ⟨hexpected, houtline, _⟩ := outline_of_part? hpart
  refine ⟨?_, List.forall_mem_cons.mpr ⟨hexpected, h.kinds⟩⟩
  rw [houtline, h.sections]
  rfl

theorem Takes.avoids {expected others : List Section} {taken : List SectionText}
    (h : Takes expected lines left taken) (hdisjoint : ∀ kind ∈ expected, kind ∉ others) :
    ∀ part ∈ taken, part.1 ∉ others :=
  fun part hpart => hdisjoint part.1 (h.kinds part hpart)

/-- After the opening sections every name has the value that the last of its
parameters gives it. -/
theorem exists_takes_of_opening {opening last : Opening}
    (h : Loops openingKinds (fun opening part => opening.read v processes part) opening lines last
      left) : ∃ taken, Takes openingKinds lines left taken ∧ ∀ name,
        Settings.get? last.settings name =
          ((lastParameter? name (parameterLines taken)).map Setting.real).or
            (Settings.get? opening.settings name) := by
  induction h with
  | done hnone => exact ⟨[], .nil, fun name => rfl⟩
  | @step opening next last lines part left hpart hstep hrest ih =>
      obtain ⟨taken, htaken, hlast⟩ := ih
      refine ⟨_, .cons hpart htaken, fun name => ?_⟩
      have htakes := (Opening.read_eq_ok_iff (outline_of_part? hpart).1).mp hstep
      have hnext : Settings.get? next.settings name =
          ((lastParameter? name (if part.kind = .parameters then texts part.body else [])).map
            Setting.real).or (Settings.get? opening.settings name) := by
        cases htakes with
        | parameters hkind hnew hbody =>
            rw [if_pos hkind]
            exact get?_setParameters hbody
        | values hkind hnew hbody =>
            rw [hkind]
            rfl
        | rule hkind hnew hbody =>
            rw [hkind]
            rfl
      rw [hlast, hnext, parameterLines_cons, lastParameter?_append]
      cases lastParameter? name (parameterLines taken) <;> rfl

/-- The name that a section on the channel or the roles sets. -/
def reservedName (kind : Section) : String :=
  if kind = .channel then Settings.guaranteeName else Settings.leaderName

/-- After the channel and the roles, each of the two names has the value that
its section gives it, or the one it had. -/
theorem exists_takes_of_channel {state last : List Section × Settings Float}
    (h : Loops channelKinds (takeChannelPart processes) state lines last left) :
    ∃ taken, Takes channelKinds lines left taken ∧
      (∀ part ∈ taken, part.1 ∉ state.1) ∧
      (∀ part ∈ taken, ∃ line value, part.2 = [line.2] ∧
        channelEntry processes part.1 line = .ok (reservedName part.1, value) ∧
        Settings.get? last.2 (reservedName part.1) = some value) ∧
      ∀ kind ∈ channelKinds, (∀ part ∈ taken, part.1 ≠ kind) →
        Settings.get? last.2 (reservedName kind) = Settings.get? state.2 (reservedName kind) := by
  induction h with
  | done hnone => exact ⟨[], .nil, by simp, by simp, fun _ _ _ => rfl⟩
  | @step state next last lines part left hpart hstep hrest ih =>
      obtain ⟨taken, htaken, hnew, hset, hkept⟩ := ih
      obtain ⟨hunseen, line, name, value, hbody, hentry, rfl⟩ :=
        takeChannelPart_eq_ok_iff.mp hstep
      obtain rfl : name = reservedName part.kind := name_of_channelEntry hentry
      have hexpected := (outline_of_part? hpart).1
      have hdistinct : ∀ kind ∈ channelKinds, kind ≠ part.kind →
          reservedName kind ≠ reservedName part.kind := by
        have hall : ∀ kind ∈ channelKinds, ∀ other ∈ channelKinds, kind ≠ other →
            reservedName kind ≠ reservedName other := by
          decide
        exact fun kind hkind hne => hall kind hkind part.kind hexpected hne
      refine ⟨_, .cons hpart htaken, ?_, ?_, ?_⟩
      · refine List.forall_mem_cons.mpr ⟨hunseen, fun other hother => ?_⟩
        exact fun hmem => hnew other hother (List.mem_cons_of_mem _ hmem)
      · refine List.forall_mem_cons.mpr ⟨⟨line, value, ?_, hentry, ?_⟩, hset⟩
        · rw [hbody]
          rfl
        · have hlater : ∀ other ∈ taken, other.1 ≠ part.kind := fun other hother heq =>
            hnew other hother (heq ▸ List.mem_cons_self)
          rw [hkept part.kind hexpected hlater, Settings.get?_set, if_pos rfl]
      · intro kind hkind hnone
        rw [List.forall_mem_cons] at hnone
        rw [hkept kind hkind hnone.2, Settings.get?_set,
          if_neg (hdistinct kind hkind (Ne.symm hnone.1))]

theorem exists_takes_of_readOptional {α : Type} {kind : Section} {absent content : α}
    {read : List Line → Except ParseError α}
    (h : readOptional kind absent read lines = .ok (content, left)) :
    ∃ taken, Takes [kind] lines left taken := by
  rcases readOptional_eq_ok_iff.mp h with ⟨_, _, rfl⟩ | ⟨part, hpart, _, rfl⟩
  · exact ⟨[], .nil⟩
  · exact ⟨_, .cons hpart .nil⟩

theorem exists_takes_of_readStateSection {last : Nat} {state : String × Option String}
    (h : readStateSection last lines = .ok (state, left)) :
    (∃ taken, Takes [.state] lines left taken) ∧ (outline (texts lines)).1 = [] := by
  rw [readStateSection] at h
  split at h
  · cases h
  · next part hpart =>
    split at h
    · split at h
      · cases h
        exact ⟨⟨_, .cons hpart .nil⟩, congrArg Prod.fst (outline_of_part? hpart).2.1⟩
      · cases h
    · cases h

/-! ## The first two lines -/

/-- The name of a protocol stands on a line that opens no section. -/
theorem header?_of_readName {line : Line} {found : String} (h : readName line = .ok found) :
    header? line.2 = none := by
  obtain ⟨number, text⟩ := line
  rw [readName] at h
  split at h
  · next hname =>
    obtain ⟨rest, hword, _⟩ := Option.bind_eq_some_iff.mp hname
    have hfirst : "PROTOCOL".toList <+: text :=
      ⟨rest, (after?_eq_some_iff.mp hword).symm⟩
    rw [Option.eq_none_iff_forall_ne_some]
    rintro ⟨kind, inline⟩ hheader
    have hsecond := word_prefix_of_inline? (header?_eq_some_iff.mp hheader)
    have hall : ∀ kind ∈ Section.all, ¬ "PROTOCOL".toList <+: kind.word.toList ∧
        ¬ kind.word.toList <+: "PROTOCOL".toList := by
      decide
    rcases List.prefix_or_prefix_of_prefix hfirst hsecond with hword | hword
    · exact (hall kind (mem_all kind)).1 hword
    · exact (hall kind (mem_all kind)).2 hword
  · cases h

/-- The line with the number of processes opens a section of its own. -/
theorem header?_of_processCount? {text digits : List Char}
    (h : processCount? text = some digits) :
    ∃ kind inline, header? text = some (kind, inline) ∧ kind ∈ [Section.processes, .nodes] := by
  obtain ⟨rest, hword, h⟩ := Option.bind_eq_some_iff.mp h
  obtain ⟨written, hcolon, _⟩ := Option.bind_eq_some_iff.mp h
  obtain ⟨gap, hgap, hrest⟩ := exists_trimLeft rest
  rw [after?_eq_some_iff.mp hcolon] at hrest
  have hinline : ∀ kind : Section, after? kind.word.toList text = some rest →
      header? text = some (kind, trim written) := by
    intro kind hkind
    rw [header?_eq_some_iff, inline?_eq_some_iff]
    refine ⟨gap, hgap, .inr ⟨written, ?_, rfl⟩⟩
    rw [after?_eq_some_iff.mp hkind, hrest, List.append_assoc]
    rfl
  rw [Option.orElse_eq_orElse, Option.orElse_eq_or, Option.or_eq_some_iff] at hword
  rcases hword with hword | ⟨_, hword⟩
  · exact ⟨.processes, _, hinline .processes hword, by simp⟩
  · exact ⟨.nodes, _, hinline .nodes hword, by simp⟩

theorem exists_takes_of_readProcesses {last count : Nat}
    (h : readProcesses last lines = .ok (count, left)) (hlead : (outline (texts left)).1 = []) :
    ∃ taken, Takes [.processes, .nodes] lines left taken := by
  cases lines with
  | nil => cases h
  | cons line rest =>
      obtain ⟨number, text⟩ := line
      rw [readProcesses] at h
      split at h
      · cases h
      · next digits hcount =>
        obtain ⟨found, _, h⟩ := bind_eq_ok.mp h
        split at h
        · cases h
        · cases h
          obtain ⟨kind, inline, hheader, hkind⟩ := header?_of_processCount? hcount
          refine ⟨[(kind, (if inline.isEmpty then [] else [inline]))], ?_, by simpa using hkind⟩
          rw [texts, List.map_cons, ← texts, outline_cons_of_header hheader, hlead,
            List.append_nil]
          rfl

/-! ## Whole texts -/

/-- What stands under the reserved names after all sections have been read. -/
structure SetsReserved (sections : List SectionText)
    (protocol : LossyConsensus.Protocol Float) : Prop where
  leader : ∀ body, (.roles, body) ∈ sections → ∃ line id, body = [line] ∧
    NamesLeader line id ∧ 1 ≤ id ∧ id ≤ protocol.processes ∧
    protocol.settings.get? Settings.leaderName = some (.process id)
  noLeader : Lacks sections .roles → protocol.settings.get? Settings.leaderName =
    (lastParameter? Settings.leaderName (parameterLines sections)).map .real
  channel : ∀ body, (.channel, body) ∈ sections → ∃ line guarantee, body = [line] ∧
    NamesGuarantee line guarantee ∧
    protocol.settings.get? Settings.guaranteeName = some (.guarantee guarantee)
  noChannel : Lacks sections .channel → protocol.settings.get? Settings.guaranteeName =
    some (((lastParameter? Settings.guaranteeName (parameterLines sections)).map .real).getD
      (.guarantee .none))

theorem get?_withGuarantee (settings : Settings Float) :
    Settings.get? (withGuarantee settings) name =
      if name = Settings.guaranteeName then
        some ((Settings.get? settings name).getD (.guarantee .none))
      else Settings.get? settings name := by
  rw [withGuarantee]
  by_cases hname : name = Settings.guaranteeName
  · subst hname
    rw [if_pos rfl]
    split
    · next value hvalue => rw [hvalue]; rfl
    · next hnone => rw [Settings.get?_set, if_pos rfl, hnone]; rfl
  · rw [if_neg hname]
    split
    · rfl
    · rw [Settings.get?_set, if_neg hname]

theorem namesLeader_of_channelEntry {line : Line} {value : Setting Float}
    (h : channelEntry processes .roles line = .ok (name, value)) :
    ∃ id : Nat, NamesLeader line.2 id ∧ 1 ≤ id ∧ id ≤ processes ∧ value = .process id := by
  obtain ⟨id, hread, heq⟩ := map_eq_ok.mp h
  cases heq
  obtain ⟨hnames, hpositive, hbound⟩ := namesLeader_of_readLeader hread
  exact ⟨id, hnames, hpositive, hbound, rfl⟩

theorem namesGuarantee_of_channelEntry {line : Line} {value : Setting Float}
    (h : channelEntry processes .channel line = .ok (name, value)) :
    ∃ guarantee, NamesGuarantee line.2 guarantee ∧ value = .guarantee guarantee := by
  obtain ⟨guarantee, hread, heq⟩ := map_eq_ok.mp h
  cases heq
  exact ⟨guarantee, namesGuarantee_of_readChannel hread, rfl⟩

theorem channelKinds_disjoint : ∀ kind ∈ channelKinds, kind ∉ openingKinds := by
  decide

section Parts

variable {before after opened channels : List SectionText}
  (hothers : ∀ part ∈ before ++ after, part.1 ∉ openingKinds ++ channelKinds)
include hothers

theorem mem_channels_of_parts (hopened : ∀ part ∈ opened, part.1 ∈ openingKinds)
    {kind : Section} {body : List (List Char)} (hkind : kind ∈ channelKinds)
    (h : (kind, body) ∈ before ++ opened ++ channels ++ after) : (kind, body) ∈ channels := by
  rw [List.mem_append, List.mem_append, List.mem_append] at h
  rcases h with ((h | h) | h) | h
  · exact absurd (List.mem_append_right _ hkind) (hothers _ (List.mem_append_left _ h))
  · exact absurd (hopened _ h) (channelKinds_disjoint kind hkind)
  · exact h
  · exact absurd (List.mem_append_right _ hkind) (hothers _ (List.mem_append_right _ h))

/-- Parameters stand only in the sections that open a protocol. -/
theorem parameterLines_of_parts (hchannels : ∀ part ∈ channels, part.1 ∈ channelKinds) :
    parameterLines (before ++ opened ++ channels ++ after) = parameterLines opened := by
  have hparameters : .parameters ∈ openingKinds := by decide
  have hnone : ∀ {sections}, (∀ part ∈ sections, part.1 ∉ openingKinds) →
      parameterLines sections = [] := fun h =>
    parameterLines_eq_nil fun part hpart heq => h part hpart (heq ▸ hparameters)
  have hopening : ∀ part ∈ before ++ after, part.1 ∉ openingKinds := fun part hpart h =>
    hothers part hpart (List.mem_append_left _ h)
  rw [parameterLines_append, parameterLines_append, parameterLines_append,
    hnone fun part hpart => hopening part (List.mem_append_left _ hpart),
    hnone fun part hpart => hopening part (List.mem_append_right _ hpart),
    hnone fun part hpart => channelKinds_disjoint part.1 (hchannels part hpart), List.nil_append,
    List.append_nil, List.append_nil]

/-- The sections that open a protocol, and those on the channel and the roles,
decide what stands under the reserved names; others may stand around them. -/
theorem setsReserved_of_parts {given : Settings Float} {protocol : LossyConsensus.Protocol Float}
    (hopened : ∀ part ∈ opened, part.1 ∈ openingKinds)
    (hgiven : ∀ name, Settings.get? given name =
      (lastParameter? name (parameterLines opened)).map Setting.real)
    (hset : ∀ part ∈ channels, ∃ line value, part.2 = [line.2] ∧
      channelEntry protocol.processes part.1 line = .ok (reservedName part.1, value) ∧
      Settings.get? settings (reservedName part.1) = some value)
    (hkept : ∀ kind ∈ channelKinds, (∀ part ∈ channels, part.1 ≠ kind) →
      Settings.get? settings (reservedName kind) = Settings.get? given (reservedName kind))
    (hchannels : ∀ part ∈ channels, part.1 ∈ channelKinds)
    (hsettings : protocol.settings = withGuarantee settings) :
    SetsReserved (before ++ opened ++ channels ++ after) protocol := by
  have habsent : ∀ kind ∈ channelKinds, Lacks (before ++ opened ++ channels ++ after) kind →
      Settings.get? settings (reservedName kind) = (lastParameter? (reservedName kind)
        (parameterLines (before ++ opened ++ channels ++ after))).map Setting.real := by
    intro kind hkind hlacks
    rw [parameterLines_of_parts hothers hchannels, ← hgiven]
    exact hkept kind hkind fun part hpart =>
      hlacks part (List.mem_append_left _ (List.mem_append_right _ hpart))
  have hleader : protocol.settings.get? Settings.leaderName =
      Settings.get? settings Settings.leaderName := by
    rw [hsettings, get?_withGuarantee, if_neg (by decide)]
  have hguarantee : protocol.settings.get? Settings.guaranteeName =
      some ((Settings.get? settings Settings.guaranteeName).getD (.guarantee .none)) := by
    rw [hsettings, get?_withGuarantee, if_pos rfl]
  refine ⟨?_, ?_, ?_, ?_⟩
  · intro body hbody
    obtain ⟨line, value, htext, hentry, hvalue⟩ :=
      hset _ (mem_channels_of_parts hothers hopened (by decide) hbody)
    obtain ⟨id, hnames, hpositive, hbound, rfl⟩ := namesLeader_of_channelEntry hentry
    exact ⟨line.2, id, htext, hnames, by omega, by omega, hleader.trans hvalue⟩
  · intro hlacks
    exact hleader.trans (habsent .roles (by decide) hlacks)
  · intro body hbody
    obtain ⟨line, value, htext, hentry, hvalue⟩ :=
      hset _ (mem_channels_of_parts hothers hopened (by decide) hbody)
    obtain ⟨guarantee, hnames, rfl⟩ := namesGuarantee_of_channelEntry hentry
    refine ⟨line.2, guarantee, htext, hnames, ?_⟩
    rw [hguarantee]
    exact congrArg (fun found => some (Option.getD found _)) hvalue
  · intro hlacks
    rw [hguarantee]
    exact congrArg (fun found => some (Option.getD found _))
      (habsent .channel (by decide) hlacks)

end Parts

theorem setsReserved_of_readLines {first : Line} {protocol : LossyConsensus.Protocol Float}
    (h : readLines first lines = .ok protocol) :
    SetsReserved (outline (texts (first :: lines))).2 protocol := by
  obtain ⟨reading, h, hdeclares⟩ := readLines_eq_ok_iff.mp h
  have hprocesses : protocol.processes = reading.processes :=
    congrArg LossyConsensus.Protocol.processes hdeclares.eq
  have hsettings : protocol.settings = withGuarantee reading.settings :=
    congrArg LossyConsensus.Protocol.settings hdeclares.eq
  obtain ⟨⟨stated, hstated⟩, hlead⟩ := exists_takes_of_readStateSection h.state
  obtain ⟨counted, hcounted⟩ := exists_takes_of_readProcesses h.processes hlead
  obtain ⟨opened, hopened, hgiven⟩ := exists_takes_of_opening (loops_of_readOpening h.opening)
  obtain ⟨seen, hloops⟩ := loops_of_readChannelParts h.channel
  obtain ⟨channels, hchannels, _, hset, hkept⟩ := exists_takes_of_channel hloops
  obtain ⟨modelled, hmodelled⟩ := exists_takes_of_readOptional h.models
  obtain ⟨ruled, hruled⟩ := exists_takes_of_readOptional h.phases
  obtain ⟨measured, hmeasured⟩ := exists_takes_of_readOptional h.metrics
  have hsections : (outline (texts (first :: lines))).2 =
      (counted ++ stated) ++ opened ++ channels ++ (modelled ++ ruled ++ measured) := by
    have hnone : (outline (texts ([] : List Line))).2 = [] := rfl
    rw [texts, List.map_cons, ← texts, outline_cons_of_plain (header?_of_readName h.name),
      hcounted.sections, hstated.sections, hopened.sections, hchannels.sections,
      hmodelled.sections, hruled.sections, hmeasured.sections, hnone]
    simp only [List.append_assoc, List.append_nil]
  have hothers : ∀ part ∈ (counted ++ stated) ++ (modelled ++ ruled ++ measured),
      part.1 ∉ openingKinds ++ channelKinds := by
    simp only [List.forall_mem_append]
    exact ⟨⟨hcounted.avoids (by decide), hstated.avoids (by decide)⟩,
      ⟨hmodelled.avoids (by decide), hruled.avoids (by decide)⟩, hmeasured.avoids (by decide)⟩
  rw [hsections]
  refine setsReserved_of_parts hothers hopened.kinds (fun name => ?_) ?_ hkept hchannels.kinds
    hsettings
  · rw [hgiven]
    exact Option.or_none
  · rw [hprocesses]
    exact hset

theorem setsReserved_of_readProtocol {text : String} {protocol : LossyConsensus.Protocol Float}
    (h : readProtocol text = .ok protocol) : SetsReserved (sectionsOf text) protocol := by
  rw [readProtocol] at h
  rw [sectionsOf]
  split at h
  · cases h
  · next first lines hlines =>
    rw [hlines]
    exact setsReserved_of_readLines h

/-! ## Binding a protocol -/

/-- Over other scalars every name has its value there. -/
theorem get?_map {S : Type} (f : Float → S) (settings : Settings Float) (name : String) :
    Settings.get? (settings.map fun (name, setting) => (name, setting.map f)) name =
      (Settings.get? settings name).map (Setting.map f) := by
  induction settings with
  | nil => rfl
  | cons entry rest ih =>
      obtain ⟨first, value⟩ := entry
      rw [List.map_cons, Settings.get?_cons, Settings.get?_cons, ih]
      split <;> rfl

section Binding

variable {R : Type} [Scalar R] {protocol : LossyConsensus.Protocol R}

theorem leader_of_process {settings : Settings R} {id : Int}
    (h : settings.get? Settings.leaderName = some (.process id)) :
    settings.leader = .ok (some id) := by
  rw [Settings.leader, h]

theorem leader_of_real {settings : Settings R} {value : R}
    (h : settings.get? Settings.leaderName = some (.real value)) :
    settings.leader = (Scalar.truncate value).map some := by
  rw [Settings.leader, h]

theorem leader_of_none {settings : Settings R}
    (h : settings.get? Settings.leaderName = none) : settings.leader = .ok none := by
  rw [Settings.leader, h]

/-- A protocol is bound to a probability and a number of rounds, if it can be
said who leads. -/
theorem exists_ofProtocol {leader : Option Int} {p : R} {rounds : Int}
    (hleader : protocol.settings.leader = .ok leader) (hp : Scalar.isProbability p = true)
    (hrounds : 0 ≤ rounds) (topology : Option (Network.Topology R))
    (faults : Option (Network.Fault R)) :
    ∃ experiment,
      Simulation.Experiment.ofProtocol protocol p rounds topology faults = .ok experiment ∧
        experiment.leader = leader :=
  ⟨_, Simulation.ofProtocol_eq_ok_iff.mpr ⟨leader, hleader, hp, hrounds, rfl⟩, rfl⟩

end Binding

/-! ## Reserved names -/

/-- A ROLES section decides the leader and a CHANNEL section the guarantee.
Without them the last parameter of the reserved name does, and there is no
leader and no guarantee if there is no such parameter either.  A protocol whose
leader is not given by a parameter can be bound to every probability and number
of rounds. -/
theorem reserved_settings_follow_sections {text : String}
    {protocol : LossyConsensus.Protocol Float} (h : readProtocol text = .ok protocol) :
    (∀ body, (.roles, body) ∈ sectionsOf text → ∃ line id, body = [line] ∧
      NamesLeader line id ∧ 1 ≤ id ∧ id ≤ protocol.processes ∧
      protocol.settings.leader = .ok (some id)) ∧
    (Lacks (sectionsOf text) .roles →
      (∀ value, lastParameter? Settings.leaderName (parameterLines (sectionsOf text)) = some value →
        protocol.settings.leader = (Scalar.truncate value).map some) ∧
      (lastParameter? Settings.leaderName (parameterLines (sectionsOf text)) = none →
        protocol.settings.leader = .ok none)) ∧
    (∀ body, (.channel, body) ∈ sectionsOf text → ∃ line guarantee, body = [line] ∧
      NamesGuarantee line guarantee ∧ protocol.settings.channel = .guarantee guarantee) ∧
    (Lacks (sectionsOf text) .channel → protocol.settings.channel =
      ((lastParameter? Settings.guaranteeName (parameterLines (sectionsOf text))).map
        Setting.real).getD (.guarantee .none)) ∧
    ∀ {R : Type} [Scalar R] (f : Float → R) (p : R) (rounds : Int)
      (topology : Option (Network.Topology R)) (faults : Option (Network.Fault R)),
      Scalar.isProbability p = true → 0 ≤ rounds →
      (Lacks (sectionsOf text) .roles →
        lastParameter? Settings.leaderName (parameterLines (sectionsOf text)) = none) →
      ∃ experiment,
        Simulation.Experiment.ofProtocol (protocol.map f) p rounds topology faults =
          .ok experiment ∧ protocol.settings.leader = .ok experiment.leader := by
  have hsets := setsReserved_of_readProtocol h
  refine ⟨?_, ?_, ?_, ?_, ?_⟩
  · intro body hbody
    obtain ⟨line, id, htext, hnames, hpositive, hbound, hleader⟩ := hsets.leader body hbody
    exact ⟨line, id, htext, hnames, hpositive, hbound, leader_of_process hleader⟩
  · intro hlacks
    have hleader := hsets.noLeader hlacks
    constructor
    · intro value hvalue
      rw [hvalue] at hleader
      exact leader_of_real hleader
    · intro hnone
      rw [hnone] at hleader
      exact leader_of_none hleader
  · intro body hbody
    obtain ⟨line, guarantee, htext, hnames, hguarantee⟩ := hsets.channel body hbody
    exact ⟨line, guarantee, htext, hnames, by rw [Settings.channel, hguarantee]; rfl⟩
  · intro hlacks
    rw [Settings.channel, hsets.noChannel hlacks, Option.getD_some]
  · intro R _ f p rounds topology faults hp hrounds hgiven
    have hmapped : (protocol.map f).settings.get? Settings.leaderName =
        (protocol.settings.get? Settings.leaderName).map (Setting.map f) :=
      get?_map f protocol.settings Settings.leaderName
    have hleader : ∃ leader, protocol.settings.leader = .ok leader ∧
        (protocol.map f).settings.leader = .ok leader := by
      by_cases hlacks : Lacks (sectionsOf text) .roles
      · have hnone := hsets.noLeader hlacks
        rw [hgiven hlacks] at hnone
        rw [hnone] at hmapped
        exact ⟨none, leader_of_none hnone, leader_of_none hmapped⟩
      · obtain ⟨⟨kind, body⟩, hmem, rfl⟩ : ∃ part ∈ sectionsOf text, part.1 = .roles := by
          simpa [Lacks] using hlacks
        obtain ⟨_, id, _, _, _, _, hprocess⟩ := hsets.leader body hmem
        rw [hprocess] at hmapped
        exact ⟨some id, leader_of_process hprocess, leader_of_process hmapped⟩
    obtain ⟨leader, hread, hbinds⟩ := hleader
    obtain ⟨experiment, hbound, rfl⟩ := exists_ofProtocol hbinds hp hrounds topology faults
    exact ⟨experiment, hbound, hread⟩

/-- A text for two processes with one parameter, and with further sections
before its update rule. -/
def namedText (parameter sections : String) : String :=
  "PROTOCOL named\nPROCESSES: 2\nSTATE: x\nPARAMETERS: " ++ parameter ++
    "\nINITIAL VALUES: [0, 1]\n" ++ sections ++ "UPDATE RULE: x ← x"

/-- The protocol that such a text declares with these settings. -/
def named (settings : Settings Float) : LossyConsensus.Protocol Float where
  name := "named"
  processes := 2
  initial := .values [0.0, 1.0]
  phases := [{ kind := .eachRound, rule := .assign (.plain "x") .own }]
  metrics := .both
  settings := settings
  models := [{ kind := .standard }]
  stateVar := "x"
  domain := none

/-- With the sections beside it, a parameter named like the leader changes
nothing. -/
theorem namedText_follows_sections :
    readProtocol (namedText "leader_id = 5" "ROLES: leader = 2\nCHANNEL: stochastic\n") =
        .ok (named [("leader_id", .process 2), ("channel_guarantee", .guarantee .none)]) ∧
      ∃ experiment,
        Simulation.Experiment.ofProtocol ((named [("leader_id", .process 2),
          ("channel_guarantee", .guarantee .none)]).map id) Scalar.zero 1 none none =
            .ok experiment ∧ experiment.leader = some 2 := by
  have hread : readProtocol (namedText "leader_id = 5" "ROLES: leader = 2\nCHANNEL: stochastic\n") =
      .ok (named [("leader_id", .process 2), ("channel_guarantee", .guarantee .none)]) := by
    decide +kernel
  have hroles : ¬ Lacks (sectionsOf
      (namedText "leader_id = 5" "ROLES: leader = 2\nCHANNEL: stochastic\n")) .roles := by
    decide +kernel
  obtain ⟨_, _, _, _, hbinds⟩ := reserved_settings_follow_sections hread
  obtain ⟨experiment, hbound, hleader⟩ :=
    hbinds id Scalar.zero 1 none none (by decide +kernel) (by decide) fun h => absurd h hroles
  exact ⟨hread, experiment, hbound, Except.ok.inj hleader.symm⟩

/-- A parameter may take the place of a leader that is no process of the
protocol, or of a guarantee that is none of the three; and with an infinite one
for the leader the protocol cannot be bound. -/
theorem parameter_takes_reserved_place :
    (∃ protocol, readProtocol (namedText "leader_id = 5" "") = .ok protocol ∧
      Lacks (sectionsOf (namedText "leader_id = 5" "")) .roles ∧ protocol.processes = 2 ∧
      protocol.settings.leader = .ok (some 5)) ∧
    (∃ protocol, readProtocol (namedText "channel_guarantee = 1" "") = .ok protocol ∧
      Lacks (sectionsOf (namedText "channel_guarantee = 1" "")) .channel ∧
      protocol.settings.channel = .real 1.0) ∧
    ∃ protocol, readProtocol (namedText "leader_id = 1e999" "") = .ok protocol ∧
      (Simulation.Experiment.ofProtocol protocol Scalar.zero 1 none none).isOk = false := by
  refine ⟨⟨named [("leader_id", .real 5.0), ("channel_guarantee", .guarantee .none)], ?_⟩,
    ⟨named [("channel_guarantee", .real 1.0)], ?_⟩,
    ⟨named [("leader_id", .real (1.0 / 0.0)), ("channel_guarantee", .guarantee .none)], ?_⟩⟩
  · decide +kernel
  · decide +kernel
  · decide +kernel

end LossyConsensus.Source
