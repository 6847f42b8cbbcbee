/-
# Edits that keep a protocol

The edits of a protocol text that change its layout only: blank lines and
comments come and go, the first line of content of a section moves between the
line of the header and a line of its own, and two neighbouring sections change
places where either order is allowed.  After any number of them the text is read
as the same protocol, or is refused as it was before.
-/

import LossyConsensus.Proofs.Source.Layout

namespace LossyConsensus.Source

open LossyConsensus.Protocol LossyConsensus.Text

/-! ## Edits -/

/-- A line that readers pass over: it is blank, or it begins with a number
sign. -/
def IsPassedOver (line : List Char) : Prop :=
  trim line = [] ∨ ∃ comment, trim line = '#' :: comment

/-- Whether a section may follow the state variable, or is the one that
declares it. -/
def Section.isFromState (kind : Section) : Bool :=
  kind != .processes && kind != .nodes

/-- Content that is still the content of the section above it when it stands on
a line of its own. -/
structure StandsAlone (content : List Char) : Prop where
  noComment : ∀ comment, content ≠ '#' :: comment
  noHeader : ¬ IsHeaderLine content

/-- The lines of a section: its header, and lines up to the next header. -/
def IsSection (kind : Section) (block : List (List Char)) : Prop :=
  ∃ header body, block = header :: body ∧
    (IsBareHeader kind header ∨ ∃ content, IsFilledHeader kind content header) ∧
    ∀ line ∈ body, ¬ IsHeaderLine line

/-- One change of the layout of a text, given by its lines. -/
inductive Edit : List (List Char) → List (List Char) → Prop
  /-- A blank line or a comment is put in. -/
  | insert (before after : List (List Char)) {line : List Char} (hline : IsPassedOver line) :
      Edit (before ++ after) (before ++ line :: after)
  /-- A blank line or a comment is taken out. -/
  | remove (before after : List (List Char)) {line : List Char} (hline : IsPassedOver line) :
      Edit (before ++ line :: after) (before ++ after)
  /-- The content behind the header's colon moves to a line below it. -/
  | moveDown (before after : List (List Char)) {kind : Section} {content full bare line : List Char}
      (hkind : kind.isFromState = true) (hfull : IsFilledHeader kind content full)
      (hbare : IsBareHeader kind bare) (hline : trim line = content)
      (hcontent : StandsAlone content) :
      Edit (before ++ full :: after) (before ++ bare :: line :: after)
  /-- The first line of content below a header moves behind its colon. -/
  | moveUp (before passed after : List (List Char)) {kind : Section}
      {content full bare line : List Char} (hkind : kind.isFromState = true)
      (hbare : IsBareHeader kind bare) (hpassed : ∀ other ∈ passed, IsPassedOver other)
      (hline : trim line = content) (hcontent : StandsAlone content)
      (hfull : IsFilledHeader kind content full) :
      Edit (before ++ bare :: (passed ++ line :: after)) (before ++ full :: (passed ++ after))
  /-- Two neighbouring sections change places. -/
  | swap (before after : List (List Char)) {first second : Section}
      {block block' : List (List Char)} (hswap : Swappable first second)
      (hblock : IsSection first block) (hblock' : IsSection second block')
      (hafter : ∀ line ∈ after.head?, IsHeaderLine line) :
      Edit (before ++ block ++ block' ++ after) (before ++ block' ++ block ++ after)

/-- One change of the layout of a text. -/
def EditsTo (text text' : String) : Prop :=
  Edit (lines text.toList) (lines text'.toList)

/-! ## Contents of the lines -/

/-- The lines that hold something, trimmed. -/
def contents (raw : List (List Char)) : List (List Char) :=
  (raw.map trim).filter fun line => !line.isEmpty && line.head? != some '#'

variable {before after raw : List (List Char)} {line content : List Char} {kind : Section}

theorem texts_contentLines (text : List Char) :
    texts (contentLines text) = contents (lines text) := by
  rw [texts, contentLines, contents, ← map_snd_numberedLines, List.map_map, List.filter_map,
    List.filter_map, List.map_map]
  rfl

theorem contents_append (raw raw' : List (List Char)) :
    contents (raw ++ raw') = contents raw ++ contents raw' := by
  rw [contents, List.map_append, List.filter_append, contents, contents]

theorem contents_cons_of_passedOver (h : IsPassedOver line) :
    contents (line :: raw) = contents raw := by
  rw [contents, List.map_cons, List.filter_cons_of_neg, contents]
  rcases h with h | ⟨comment, h⟩
  · simp [h]
  · simp [h]

/-- Passed-over lines between a line and the next ones hold nothing. -/
theorem contents_cons_passedOver (line : List Char) {passed : List (List Char)}
    (h : ∀ other ∈ passed, IsPassedOver other) (raw : List (List Char)) :
    contents (line :: (passed ++ raw)) = contents (line :: raw) := by
  have hpassed : contents passed = [] := by
    induction passed with
    | nil => rfl
    | cons other passed ih =>
        rw [List.forall_mem_cons] at h
        rw [contents_cons_of_passedOver h.1, ih h.2]
  rw [← List.singleton_append, contents_append, contents_append, hpassed, List.nil_append,
    ← contents_append, List.singleton_append]

theorem contents_cons (hnil : trim line ≠ []) (hcomment : ∀ comment, trim line ≠ '#' :: comment) :
    contents (line :: raw) = trim line :: contents raw := by
  rw [contents, List.map_cons, List.filter_cons_of_pos, contents]
  cases hline : trim line with
  | nil => exact absurd hline hnil
  | cons c rest =>
      have hc : c ≠ '#' := fun h => hcomment rest (h ▸ hline)
      simpa using hc

/-- A header is neither blank nor a comment. -/
theorem contents_cons_of_header {inline : List Char}
    (h : header? (trim line) = some (kind, inline)) :
    contents (line :: raw) = trim line :: contents raw := by
  obtain ⟨rest, hword⟩ := word_prefix_of_inline? (header?_eq_some_iff.mp h)
  have hfront : ∀ kind ∈ Section.all, ∃ c word, kind.word.toList = c :: word ∧ c ≠ '#' := by
    intro kind _
    cases kind <;> exact ⟨_, _, rfl, by decide⟩
  obtain ⟨c, word, hkind, hc⟩ := hfront kind (mem_all kind)
  rw [hkind] at hword
  refine contents_cons ?_ ?_
  · rw [← hword]
    exact List.cons_ne_nil _ _
  · intro comment hcomment
    rw [← hword] at hcomment
    cases hcomment
    exact hc rfl

theorem contents_cons_of_standsAlone (hline : trim line = content) (hnil : content ≠ [])
    (h : StandsAlone content) : contents (line :: raw) = content :: contents raw := by
  subst hline
  exact contents_cons hnil h.noComment

theorem header?_of_standsAlone (hcontent : Trimmed content) (h : StandsAlone content) :
    header? content = none := by
  have hnone := mt isHeaderLine_iff.mpr h.noHeader
  rw [hcontent.trim_self] at hnone
  exact Option.not_isSome_iff_eq_none.mp hnone

/-! ## Outlines of edited texts -/

theorem header?_of_mem_contents (hraw : ∀ line ∈ raw, ¬ IsHeaderLine line) :
    ∀ text ∈ contents raw, header? text = none := by
  intro text htext
  obtain ⟨line, hline, rfl⟩ := List.mem_map.mp (List.mem_of_mem_filter htext)
  exact Option.not_isSome_iff_eq_none.mp (mt isHeaderLine_iff.mpr (hraw line hline))

/-- A section is one section to its readers, whatever sections follow it. -/
theorem exists_outline_of_isSection {block : List (List Char)} (h : IsSection kind block) :
    ∃ text inline rest, contents block = text :: rest ∧ header? text = some (kind, inline) ∧
      ∃ body, ∀ after, (outline after).1 = [] →
        outline (contents block ++ after) = ([], (kind, body) :: (outline after).2) := by
  obtain ⟨header, body, rfl, hheader, hbody⟩ := h
  obtain ⟨inline, hheader⟩ : ∃ inline, header? (trim header) = some (kind, inline) := by
    rcases hheader with hbare | ⟨content, hfilled⟩
    · exact ⟨[], header?_bare hbare⟩
    · exact ⟨content, header?_filled hfilled⟩
  have hcontents : contents (header :: body) = trim header :: contents body :=
    contents_cons_of_header hheader
  refine ⟨trim header, inline, contents body, hcontents, hheader,
    (if inline.isEmpty then [] else [inline]) ++ contents body, fun after hafter => ?_⟩
  rw [hcontents, List.cons_append, outline_cons_of_header hheader,
    outline_append_of_plain (header?_of_mem_contents hbody), hafter, List.append_nil]

/-! ## What an edit leaves -/

/-- Texts that begin with the header of a section from the state variable
on. -/
def BeginsLate (changed : List (List Char)) : Prop :=
  ∃ text rest kind inline, changed = text :: rest ∧ header? text = some (kind, inline) ∧
    kind.isFromState = true

/-- Contents that are the same up to the header of a section from the state
variable on, and that hold the same sections from there, but for two
neighbours. -/
inductive SameContents : List (List Char) → List (List Char) → Prop
  | same (contents : List (List Char)) : SameContents contents contents
  | shift (top : List (List Char)) {changed changed' : List (List Char)}
      (hbegins : BeginsLate changed) (hbegins' : BeginsLate changed')
      (hsections : Rearranged (outline changed).2 (outline changed').2) :
      SameContents (top ++ changed) (top ++ changed')

theorem SameContents.symm {found found' : List (List Char)} (h : SameContents found found') :
    SameContents found' found := by
  cases h with
  | same => exact .same _
  | shift top hbegins hbegins' hsections => exact .shift top hbegins' hbegins hsections.symm

theorem BeginsLate.lead_eq {changed : List (List Char)} (h : BeginsLate changed) :
    (outline changed).1 = [] := by
  obtain ⟨text, rest, kind, inline, rfl, hheader, _⟩ := h
  rw [outline_cons_of_header hheader]

/-- Content behind the header's colon and content below a bare header are the
same content. -/
theorem sameContents_of_move {bare full : List Char} (hkind : kind.isFromState = true)
    (hfull : IsFilledHeader kind content full) (hbare : IsBareHeader kind bare)
    (hline : trim line = content) (hcontent : StandsAlone content) :
    SameContents (contents (before ++ full :: after))
      (contents (before ++ bare :: line :: after)) := by
  have hbare := header?_bare hbare
  have hplain := header?_of_standsAlone hfull.1 hcontent
  have hnil : content.isEmpty = false := by
    simpa using hfull.1.ne_nil
  have hfull' := header?_filled hfull
  rw [contents_append, contents_append, contents_cons_of_header hfull',
    contents_cons_of_header hbare,
    contents_cons_of_standsAlone hline hfull.1.ne_nil hcontent]
  refine .shift _ ⟨_, _, kind, _, rfl, hfull', hkind⟩ ⟨_, _, kind, _, rfl, hbare, hkind⟩ ?_
  rw [outline_cons_of_header hfull', outline_cons_of_header hbare, outline_cons_of_plain hplain,
    hnil]
  exact .same _

theorem isFromState_of_swappable {first second : Section} (h : Swappable first second) :
    first.isFromState = true := by
  have hall : ∀ pair ∈ swappable, pair.1.isFromState = true := by decide
  exact hall _ h

theorem sameContents_of_swap {first second : Section} {block block' : List (List Char)}
    (hswap : Swappable first second) (hblock : IsSection first block)
    (hblock' : IsSection second block') (hafter : ∀ line ∈ after.head?, IsHeaderLine line) :
    SameContents (contents (before ++ block ++ block' ++ after))
      (contents (before ++ block' ++ block ++ after)) := by
  obtain ⟨text, inline, rest, hcontents, hheader, body, houtline⟩ :=
    exists_outline_of_isSection hblock
  obtain ⟨text', inline', rest', hcontents', hheader', body', houtline'⟩ :=
    exists_outline_of_isSection hblock'
  have hlead : (outline (contents after)).1 = [] := by
    cases after with
    | nil => rfl
    | cons line after =>
        obtain ⟨⟨kind, inline⟩, hline⟩ :=
          Option.isSome_iff_exists.mp (isHeaderLine_iff.mp (hafter line rfl))
        rw [contents_cons_of_header hline, outline_cons_of_header hline]
  have hlate {kind : Section} {text inline : List Char} {rest found : List (List Char)}
      (hfound : found = text :: rest) (hheader : header? text = some (kind, inline))
      (hkind : kind.isFromState = true) (more : List (List Char)) : BeginsLate (found ++ more) :=
    ⟨text, rest ++ more, kind, inline, by rw [hfound, List.cons_append], hheader, hkind⟩
  simp only [contents_append, List.append_assoc]
  refine .shift _ (hlate hcontents hheader (isFromState_of_swappable hswap) _)
    (hlate hcontents' hheader' (isFromState_of_swappable hswap.symm) _) ?_
  have hfirst := houtline' _ hlead
  have hsecond := houtline _ hlead
  rw [houtline _ (congrArg Prod.fst hfirst), hfirst, houtline' _ (congrArg Prod.fst hsecond),
    hsecond]
  exact .swap hswap _

theorem Edit.sameContents {raw raw' : List (List Char)} (h : Edit raw raw') :
    SameContents (contents raw) (contents raw') := by
  cases h with
  | insert before after hline =>
      rw [contents_append, contents_append, contents_cons_of_passedOver hline]
      exact .same _
  | remove before after hline =>
      rw [contents_append, contents_append, contents_cons_of_passedOver hline]
      exact .same _
  | moveDown before after hkind hfull hbare hline hcontent =>
      exact sameContents_of_move hkind hfull hbare hline hcontent
  | moveUp before passed after hkind hbare hpassed hline hcontent hfull =>
      rw [contents_append, contents_append, contents_cons_passedOver _ hpassed,
        contents_cons_passedOver _ hpassed, ← contents_append, ← contents_append]
      exact (sameContents_of_move hkind hfull hbare hline hcontent).symm
  | swap before after hswap hblock hblock' hafter =>
      exact sameContents_of_swap hswap hblock hblock' hafter

/-! ## Reading an edited text -/

theorem word_prefix_cases {text : List Char} {inline : List Char} {word : List Char}
    (hheader : header? text = some (kind, inline)) (hword : word <+: text) :
    kind.word.toList <+: word ∨ word <+: kind.word.toList :=
  List.prefix_or_prefix_of_prefix (word_prefix_of_inline? (header?_eq_some_iff.mp hheader)) hword

/-- No header names a protocol. -/
theorem readName_ne_ok {number : Nat} {text inline : List Char} {name : String}
    (hheader : header? text = some (kind, inline)) : readName (number, text) ≠ .ok name := by
  intro h
  simp only [readName] at h
  split at h
  · next found hfound =>
    obtain ⟨rest, hrest, _⟩ := Option.bind_eq_some_iff.mp hfound
    have hclash : ∀ kind ∈ Section.all, ¬ (kind.word.toList <+: "PROTOCOL".toList) ∧
        ¬ ("PROTOCOL".toList <+: kind.word.toList) := by
      decide
    have hword := word_prefix_cases hheader ⟨rest, (after?_eq_some_iff.mp hrest).symm⟩
    exact hword.elim (hclash kind (mem_all kind)).1 (hclash kind (mem_all kind)).2
  · cases h

/-- No header of a section from the state variable on gives the number of
processes. -/
theorem readProcesses_ne_ok {last number : Nat} {text inline : List Char} {rest : List Line}
    {found : Nat × List Line} (hheader : header? text = some (kind, inline))
    (hkind : kind.isFromState = true) :
    readProcesses last ((number, text) :: rest) ≠ .ok found := by
  intro h
  simp only [readProcesses] at h
  split at h
  · cases h
  · next digits hdigits =>
    have hclash : ∀ kind ∈ Section.all, kind.isFromState = true → ∀ word ∈ ["PROCESSES", "NODES"],
        ¬ (kind.word.toList <+: word.toList) ∧ ¬ (word.toList <+: kind.word.toList) := by
      decide
    have hword (word : String) (hmem : word ∈ ["PROCESSES", "NODES"]) :
        after? word.toList text = none := by
      cases hafter : after? word.toList text with
      | none => rfl
      | some following =>
          have hbegins := word_prefix_cases hheader ⟨following, (after?_eq_some_iff.mp hafter).symm⟩
          have hapart := hclash kind (mem_all kind) hkind word hmem
          exact (hbegins.elim hapart.1 hapart.2).elim
    rw [processCount?, hword "PROCESSES" (by simp), hword "NODES" (by simp)] at hdigits
    cases hdigits

/-- A protocol that is read begins with two lines that are its own. -/
theorem exists_of_readLines {first : Line} {rest : List Line}
    {protocol : LossyConsensus.Protocol Float} (h : readLines first rest = .ok protocol) :
    ∃ second lines, rest = second :: lines ∧ (∃ name, readName first = .ok name) ∧
      ∃ last found, readProcesses last (second :: lines) = .ok found := by
  obtain ⟨reading, h, _⟩ := readLines_eq_ok_iff.mp h
  cases rest with
  | nil => cases h.processes
  | cons second lines => exact ⟨second, lines, rfl, ⟨_, h.name⟩, _, _, h.processes⟩

theorem relaid_of_shift {rest rest' : List Line} {top changed changed' : List (List Char)}
    (hrest : texts rest = top ++ changed) (hrest' : texts rest' = top ++ changed')
    (hbegins : BeginsLate changed) (hbegins' : BeginsLate changed')
    (hsections : Rearranged (outline changed).2 (outline changed').2) : Relaid rest rest' := by
  constructor
  · rw [hrest, hrest', outline_append hbegins.lead_eq, outline_append hbegins'.lead_eq]
  · rw [hrest, hrest', outline_append hbegins.lead_eq, outline_append hbegins'.lead_eq]
    exact hsections.append_left _

/-- Texts with the same contents are read as the same protocol. -/
theorem readProtocol_of_sameContents {text text' : String}
    (h : SameContents (contents (lines text.toList)) (contents (lines text'.toList)))
    {protocol : LossyConsensus.Protocol Float} (hread : readProtocol text = .ok protocol) :
    ∃ protocol', readProtocol text' = .ok protocol' ∧ SameProtocol protocol protocol' := by
  rw [← texts_contentLines, ← texts_contentLines] at h
  rw [readProtocol] at hread ⊢
  generalize contentLines text.toList = found at h hread
  generalize contentLines text'.toList = found' at h
  cases found with
  | nil => cases hread
  | cons first rest =>
      obtain ⟨second, rest, rfl, ⟨name, hname⟩, last, processes, hprocesses⟩ :=
        exists_of_readLines hread
      generalize hfound : texts (first :: second :: rest) = shown at h
      generalize hfound' : texts found' = shown' at h
      cases h with
      | same =>
          rw [← hfound'] at hfound
          obtain ⟨_, rest₁, rfl, hrest₁⟩ := exists_line_of_texts_eq hfound rfl
          obtain ⟨_, rest₂, rfl, hrest₂⟩ := exists_line_of_texts_eq hrest₁ rfl
          refine readLines_relaid ?_ ?_ (.of_texts_eq hrest₂) hread
          · rfl
          · rfl
      | @shift top changed changed' hbegins hbegins' hsections =>
          obtain ⟨header, after, kind, inline, hchanged, hheader, hkind⟩ := id hbegins
          rcases top with _ | ⟨firstText, _ | ⟨secondText, top⟩⟩
          · rw [List.nil_append, hchanged] at hfound
            cases hfound
            exact absurd hname (readName_ne_ok hheader)
          · rw [hchanged] at hfound
            cases hfound
            exact absurd hprocesses (readProcesses_ne_ok hheader hkind)
          · obtain ⟨firstNumber, rest₁, hfirst, hrest₁⟩ := exists_of_texts_eq_cons hfound
            obtain ⟨secondNumber, rest₂, hsecond, hrest₂⟩ := exists_of_texts_eq_cons hrest₁
            obtain ⟨_, rest₁', rfl, hrest₁'⟩ := exists_of_texts_eq_cons hfound'
            obtain ⟨_, rest₂', rfl, hrest₂'⟩ := exists_of_texts_eq_cons hrest₁'
            cases hfirst
            cases hsecond
            have hrelaid := relaid_of_shift hrest₂ hrest₂' hbegins hbegins' hsections
            refine readLines_relaid ?_ ?_ hrelaid hread
            · rfl
            · rfl

/-- Every edit of the layout, and every sequence of them, gives a text of the
same protocol; and where the text is refused, so is the edited one. -/
theorem readProtocol_keeps_through_edits {text text' : String}
    (hedits : Relation.ReflTransGen EditsTo text text') :
    (∀ protocol, readProtocol text = .ok protocol →
      ∃ protocol', readProtocol text' = .ok protocol' ∧ SameProtocol protocol protocol') ∧
    (∀ fault, readProtocol text = .error fault → ∃ fault', readProtocol text' = .error fault') := by
  induction hedits with
  | refl => exact ⟨fun protocol h => ⟨protocol, h, .refl protocol⟩, fun fault h => ⟨fault, h⟩⟩
  | @tail middle last _ hedit ih =>
      obtain ⟨haccepted, hrefused⟩ := ih
      constructor
      · intro protocol h
        obtain ⟨protocol', h', hsame⟩ := haccepted protocol h
        obtain ⟨protocol'', h'', hsame'⟩ := readProtocol_of_sameContents hedit.sameContents h'
        exact ⟨protocol'', h'', hsame.trans hsame'⟩
      · intro fault h
        obtain ⟨fault', h'⟩ := hrefused fault h
        cases hlast : readProtocol last with
        | error fault'' => exact ⟨fault'', rfl⟩
        | ok protocol =>
            -- The edit is undone by one of the same kind, so its source is accepted as well.
            obtain ⟨protocol', hread, _⟩ :=
              readProtocol_of_sameContents hedit.sameContents.symm hlast
            rw [h'] at hread
            cases hread

/-- The lines of a protocol of two processes; those between the second and the
last one may be laid out in several ways. -/
def pairLines (middle : List String) : List (List Char) :=
  (["PROTOCOL pair", "PROCESSES: 2"] ++ middle ++ ["UPDATE RULE: x <- a"]).map String.toList

/-- The text with these lines. -/
def pairText (middle : List String) : String :=
  String.ofList ((pairLines middle).flatMap fun line => line ++ ['\n'])

theorem editsTo_pairText {middle middle' : List String}
    (hlines : ∀ line ∈ pairLines middle, ∀ c ∈ line, isLineEnd c = false)
    (hlines' : ∀ line ∈ pairLines middle', ∀ c ∈ line, isLineEnd c = false)
    (h : Edit (pairLines middle) (pairLines middle')) :
    EditsTo (pairText middle) (pairText middle') := by
  rwa [EditsTo, pairText, pairText, String.toList_ofList, String.toList_ofList,
    lines_flatMap hlines, lines_flatMap hlines']

theorem not_isHeaderLine_of_header? {line : List Char} (h : header? (trim line) = none) :
    ¬ IsHeaderLine line := by
  rw [isHeaderLine_iff, h]
  exact Bool.false_ne_true

theorem isBareHeader_pair : IsBareHeader .parameters "PARAMETERS".toList :=
  ⟨[], Blanks.nil, .inl (by decide)⟩

/-- A comment is put in. -/
theorem pairText_insertsComment : EditsTo
    (pairText ["STATE: x", "INITIAL VALUES: [0, 1]", "PARAMETERS", "a = 2"])
    (pairText ["# one parameter", "STATE: x", "INITIAL VALUES: [0, 1]", "PARAMETERS", "a = 2"]) := by
  have hcomment : IsPassedOver "# one parameter".toList :=
    .inr ⟨" one parameter".toList, by decide⟩
  exact editsTo_pairText (by decide) (by decide)
    (Edit.insert (["PROTOCOL pair", "PROCESSES: 2"].map String.toList)
      (["STATE: x", "INITIAL VALUES: [0, 1]", "PARAMETERS", "a = 2", "UPDATE RULE: x <- a"].map
        String.toList) hcomment)

/-- The parameters move before the initial values. -/
theorem pairText_swapsSections : EditsTo
    (pairText ["# one parameter", "STATE: x", "INITIAL VALUES: [0, 1]", "PARAMETERS", "a = 2"])
    (pairText ["# one parameter", "STATE: x", "PARAMETERS", "a = 2", "INITIAL VALUES: [0, 1]"]) := by
  have hfilled : IsFilledHeader .initialValues "[0, 1]".toList "INITIAL VALUES: [0, 1]".toList :=
    ⟨⟨⟨_, _, rfl, by decide⟩, ⟨"[0, 1".toList, ']', by decide, by decide⟩⟩, [], [' '], Blanks.nil,
      by simp [Blanks, isBlank], by decide⟩
  have hvalues : IsSection .initialValues ["INITIAL VALUES: [0, 1]".toList] :=
    ⟨_, [], rfl, .inr ⟨_, hfilled⟩, by simp⟩
  have hparameters : IsSection .parameters ["PARAMETERS".toList, "a = 2".toList] :=
    ⟨_, ["a = 2".toList], rfl, .inl isBareHeader_pair,
      by simpa using not_isHeaderLine_of_header? (by decide)⟩
  have hrule : IsHeaderLine "UPDATE RULE: x <- a".toList := isHeaderLine_iff.mpr (by decide)
  exact editsTo_pairText (by decide) (by decide)
    (Edit.swap (["PROTOCOL pair", "PROCESSES: 2", "# one parameter", "STATE: x"].map String.toList)
      ["UPDATE RULE: x <- a".toList] (by decide) hvalues hparameters (by simpa using hrule))

/-- The one parameter moves behind its header. -/
theorem pairText_movesUp : EditsTo
    (pairText ["# one parameter", "STATE: x", "PARAMETERS", "a = 2", "INITIAL VALUES: [0, 1]"])
    (pairText ["# one parameter", "STATE: x", "PARAMETERS: a = 2", "INITIAL VALUES: [0, 1]"]) := by
  have hfilled : IsFilledHeader .parameters "a = 2".toList "PARAMETERS: a = 2".toList :=
    ⟨⟨⟨_, _, rfl, by decide⟩, ⟨"a = ".toList, '2', by decide, by decide⟩⟩, [], [' '], Blanks.nil,
      by simp [Blanks, isBlank], by decide⟩
  have hline : trim "a = 2".toList = "a = 2".toList := by decide
  exact editsTo_pairText (by decide) (by decide)
    (Edit.moveUp (["PROTOCOL pair", "PROCESSES: 2", "# one parameter", "STATE: x"].map
      String.toList) [] (["INITIAL VALUES: [0, 1]", "UPDATE RULE: x <- a"].map String.toList)
      (by decide) isBareHeader_pair (by simp) hline
      ⟨by simp, not_isHeaderLine_of_header? (by decide)⟩ hfilled)

/-- A comment is put in, the parameters move before the initial values, and the
one parameter moves behind its header. -/
theorem pairText_editsTo : Relation.ReflTransGen EditsTo
    (pairText ["STATE: x", "INITIAL VALUES: [0, 1]", "PARAMETERS", "a = 2"])
    (pairText ["# one parameter", "STATE: x", "PARAMETERS: a = 2", "INITIAL VALUES: [0, 1]"]) :=
  .tail (.tail (.single pairText_insertsComment) pairText_swapsSections) pairText_movesUp

/-- The protocol of two processes is read from both of its layouts. -/
theorem pairText_keeps_through_edits : ∃ protocol protocol',
    readProtocol (pairText ["STATE: x", "INITIAL VALUES: [0, 1]", "PARAMETERS", "a = 2"]) =
      .ok protocol ∧
    readProtocol (pairText
      ["# one parameter", "STATE: x", "PARAMETERS: a = 2", "INITIAL VALUES: [0, 1]"]) =
      .ok protocol' ∧
    SameProtocol protocol protocol' := by
  have hok : (readProtocol (pairText
      ["STATE: x", "INITIAL VALUES: [0, 1]", "PARAMETERS", "a = 2"])).isOk = true := by
    decide +kernel
  obtain ⟨protocol, hread⟩ := exists_eq_ok hok
  obtain ⟨protocol', hread', hsame⟩ :=
    (readProtocol_keeps_through_edits pairText_editsTo).1 protocol hread
  exact ⟨protocol, protocol', hread, hread', hsame⟩

end LossyConsensus.Source
