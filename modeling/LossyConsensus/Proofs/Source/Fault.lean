/-
# Errors and the lines they belong to

An error about a protocol text names a line that is neither blank nor a comment,
or no line at all: then the text is empty, its parts do not fit together, or a
conversion has failed.  What cannot be converted stands on one of the lines too.

A reader is followed through its parts.  Each part fails only with errors that
are tied to the lines of the text, and what it leaves over are such lines.
-/

import LossyConsensus.Proofs.Source.Block
import LossyConsensus.Proofs.Source.Conversion
import LossyConsensus.Proofs.Source.Header
import LossyConsensus.Source.Protocol

namespace LossyConsensus.Source

open LossyConsensus.Protocol LossyConsensus.Text

variable {α β : Type} {whole lines left : List Line} {line : Line} {v : Vocabulary}

/-! ## Lines of a text -/

/-- A line that stands in a text: the text has a line of this number that holds
its characters. -/
def Stands (whole : List Line) (line : Line) : Prop :=
  ∃ other ∈ whole, other.1 = line.1 ∧ line.2 <:+: other.2

/-- Lines that all stand in a text. -/
def Within (whole lines : List Line) : Prop :=
  ∀ line ∈ lines, Stands whole line

theorem Stands.part (h : Stands whole line) {text : List Char} (htext : text <:+: line.2) :
    Stands whole (line.1, text) := by
  obtain ⟨other, hother, hnumber, hline⟩ := h
  exact ⟨other, hother, hnumber, htext.trans hline⟩

theorem within_self (lines : List Line) : Within lines lines :=
  fun line hline => ⟨line, hline, rfl, List.infix_rfl⟩

theorem Within.cons_iff : Within whole (line :: lines) ↔ Stands whole line ∧ Within whole lines :=
  List.forall_mem_cons

theorem Within.of_subset (h : Within whole lines) (hsubset : left ⊆ lines) : Within whole left :=
  fun line hline => h line (hsubset hline)

/-! ## Errors that belong to lines -/

/-- An error is tied to lines if it names one of them or none, or if one of them
holds what could not be converted. -/
inductive ParseError.IsTiedTo (lines : List Line) : ParseError → Prop
  | unplaced (fault : ProtocolFault) : IsTiedTo lines (.refused none fault)
  | placed {line : Line} (hline : line ∈ lines) (fault : ProtocolFault) :
      IsTiedTo lines (.refused (some (line.1 : Int)) fault)
  | converted {line : Line} {fault : ConversionFault} (hline : line ∈ lines)
      (hfault : fault.ArisesIn line.2) : IsTiedTo lines (.unconvertible fault)

/-- A computation fails only with errors that are tied to lines of a text, and a
property holds of what it results in. -/
structure Tied (whole : List Line) (property : α → Prop) (computation : Except ParseError α) :
    Prop where
  error : ∀ error, computation = .error error → error.IsTiedTo whole
  result : ∀ value, computation = .ok value → property value

/-- Nothing in particular is known of what a computation results in. -/
def Anything (_ : α) : Prop := True

namespace Tied

variable {property : α → Prop} {other : β → Prop} {computation : Except ParseError α}

theorem ok {value : α} (h : property value) : Tied whole property (.ok value) := by
  constructor
  · intro error herror
    cases herror
  · intro found hfound
    cases hfound
    exact h

theorem refuse (h : Stands whole line) (fault : ProtocolFault) :
    Tied whole property (Source.refuse line.1 fault) := by
  obtain ⟨found, hfound, hnumber, _⟩ := h
  constructor
  · intro error herror
    cases herror
    rw [← hnumber]
    exact .placed hfound fault
  · intro value hvalue
    cases hvalue

theorem bind {next : α → Except ParseError β} (hfirst : Tied whole property computation)
    (hnext : ∀ value, property value → Tied whole other (next value)) :
    Tied whole other (computation >>= next) := by
  constructor
  · intro error herror
    rcases bind_eq_error.mp herror with herror | ⟨value, hvalue, herror⟩
    · exact hfirst.error error herror
    · exact (hnext value (hfirst.result value hvalue)).error error herror
  · intro result hresult
    obtain ⟨value, hvalue, hresult⟩ := bind_eq_ok.mp hresult
    exact (hnext value (hfirst.result value hvalue)).result result hresult

/-- What a computation results in is what it has given. -/
theorem reached (h : Tied whole property computation) :
    Tied whole (fun value => computation = .ok value ∧ property value) computation :=
  ⟨h.error, fun value hvalue => ⟨hvalue, h.result value hvalue⟩⟩

/-- A result is looked at through a function. -/
theorem of_map {look : α → β} (h : Tied whole other (computation.map look)) :
    Tied whole (fun value => other (look value)) computation := by
  constructor
  · intro error herror
    exact h.error error (map_eq_error.mpr herror)
  · intro value hvalue
    exact h.result (look value) (map_eq_ok.mpr ⟨value, hvalue, rfl⟩)

/-- Errors of a rule are tied to the line on which it is read. -/
theorem onLine (h : Stands whole line) {reading : Except RuleError α}
    (hreading : ConvertsWithin line.2 reading) :
    Tied whole Anything (Source.onLine line.1 reading) := by
  obtain ⟨found, hfound, hnumber, hwithin⟩ := h
  constructor
  · intro error herror
    obtain ⟨inner, hinner, rfl⟩ := mapError_eq_error.mp herror
    cases inner with
    | refused fault =>
        rw [← hnumber]
        exact .placed hfound (.rule fault)
    | unconvertible fault => exact .converted hfound ((hreading fault hinner).mono hwithin)
  · exact fun _ _ => trivial

/-- A number on a line fails only if it is too long. -/
theorem number (h : Stands whole line) {digits : List Char} (hnumber : isNumber digits = true)
    (hkeeps : KeepsNumbers line.2 digits) :
    Tied whole Anything ((readNumber digits).mapError ParseError.unconvertible) := by
  obtain ⟨found, hfound, _, hwithin⟩ := h
  constructor
  · intro error herror
    obtain ⟨fault, hfault, rfl⟩ := mapError_eq_error.mp herror
    exact .converted hfound ((arisesIn_of_readNumber hnumber hkeeps hfault).mono hwithin)
  · exact fun _ _ => trivial

/-- Going through the items of a list. -/
theorem foldlM {items : List β} {step : α → β → Except ParseError α} {start : α}
    (hstep : ∀ value item, item ∈ items → Tied whole Anything (step value item)) :
    Tied whole Anything (items.foldlM step start) := by
  induction items generalizing start with
  | nil => exact ok trivial
  | cons item items ih =>
      rw [List.foldlM_cons]
      refine bind (hstep start item List.mem_cons_self) fun value _ => ih fun value item hitem => ?_
      exact hstep value item (List.mem_cons_of_mem _ hitem)

end Tied

/-! ## Phases -/

theorem afterColon_isInfix (text : List Char) : afterColon text <:+: text := by
  rw [afterColon]
  split
  · next rest hrest =>
    refine (trim_isInfix rest).trans ((List.suffix_cons ':' rest).isInfix.trans ?_)
    rw [← hrest]
    exact (trimLeft_isSuffix text).isInfix
  · exact (trim_isInfix _).trans (trimLeft_isSuffix text).isInfix

theorem isInfix_of_keyword? {word : String} {text rest : List Char}
    (h : keyword? word text = some rest) : rest <:+: text := by
  obtain ⟨following, hfollowing, h⟩ := Option.bind_eq_some_iff.mp h
  split at h
  · cases h
    exact (afterColon_isInfix following).trans (isSuffix_of_after? hfollowing).isInfix
  · cases h

theorem parts_of_afterHeader? {text digits rest : List Char}
    (h : afterHeader? text = some (digits, rest)) :
    isNumber digits = true ∧ digits <:+: text ∧ rest <:+: text := by
  obtain ⟨behind, hword, h⟩ := Option.bind_eq_some_iff.mp h
  obtain ⟨start, hstart, h⟩ := Option.bind_eq_some_iff.mp h
  obtain ⟨⟨found, between⟩, hnumber, h⟩ := Option.bind_eq_some_iff.mp h
  obtain ⟨gap, hgap, h⟩ := Option.bind_eq_some_iff.mp h
  obtain ⟨ending, hround, h⟩ := Option.bind_eq_some_iff.mp h
  cases h
  obtain ⟨hdigits, rfl⟩ := eq_of_number? hnumber
  have hfront : digits ++ between <:+ text :=
    (isSuffix_of_blanks? hstart).trans (isSuffix_of_after? hword)
  have hending : ending <:+ between :=
    (isSuffix_of_after? hround).trans (isSuffix_of_blanks? hgap)
  have hlast : (after? "S".toList ending).getD ending <:+ ending := by
    cases hletter : after? "S".toList ending with
    | none => exact List.suffix_rfl
    | some rest => exact isSuffix_of_after? hletter
  refine ⟨hdigits, (List.prefix_append _ _).isInfix.trans hfront.isInfix, ?_⟩
  refine (afterColon_isInfix _).trans ((hlast.trans hending).isInfix.trans ?_)
  exact (List.suffix_append _ _).isInfix.trans hfront.isInfix

theorem isInfix_of_untilHeader? {text word rest : List Char}
    (h : untilHeader? text = some (word, rest)) : rest <:+: text := by
  obtain ⟨behind, hword, h⟩ := Option.bind_eq_some_iff.mp h
  obtain ⟨start, hstart, h⟩ := Option.bind_eq_some_iff.mp h
  dsimp only at h
  split at h
  · cases h
  · cases h
    refine (afterColon_isInfix _).trans ((List.dropWhile_suffix _).isInfix.trans ?_)
    exact ((isSuffix_of_blanks? hstart).trans (isSuffix_of_after? hword)).isInfix

theorem tied_phaseHeader? (h : Stands whole line) :
    Tied whole (fun header? => ∀ header ∈ header?, header.rest <:+: line.2)
      (phaseHeader? line) := by
  obtain ⟨number, text⟩ := line
  have hfound {kind : PhaseKind} {after : Option Int} {rest : List Char} (hrest : rest <:+: text) :
      Tied whole (fun header? => ∀ header ∈ header?, PhaseHeader.rest header <:+: text)
        (.ok (some { kind, after, rest })) := by
    refine .ok fun header hheader => ?_
    cases hheader
    exact hrest
  rw [phaseHeader?]
  split
  · next hkeyword => exact hfound (isInfix_of_keyword? hkeyword)
  · split
    · next hkeyword => exact hfound (isInfix_of_keyword? hkeyword)
    · split
      · next hafter =>
        obtain ⟨hnumber, hdigits, hrest⟩ := parts_of_afterHeader? hafter
        exact .bind (.number h hnumber (keepsNumbers_of_isInfix hdigits)) fun rounds _ =>
          hfound hrest
      · split
        · next huntil =>
          split
          · exact hfound (isInfix_of_untilHeader? huntil)
          · exact .refuse h _
        · split
          · next hkeyword => exact hfound (isInfix_of_keyword? hkeyword)
          · split
            · exact .refuse h _
            · exact .ok (by simp)

theorem isInfix_of_elseIf? {text conditional : List Char} (h : elseIf? text = some conditional) :
    conditional <:+: text := by
  obtain ⟨behind, hword, h⟩ := Option.bind_eq_some_iff.mp h
  obtain ⟨start, hstart, h⟩ := Option.bind_eq_some_iff.mp h
  obtain ⟨following, _, h⟩ := Option.bind_eq_some_iff.mp h
  split at h
  · cases h
    exact ((isSuffix_of_blanks? hstart).trans (isSuffix_of_after? hword)).isInfix
  · cases h

theorem dropEndLine_subset (lines : List Line) : dropEndLine lines ⊆ lines := by
  cases lines with
  | nil => exact List.Subset.refl _
  | cons line rest =>
      rw [dropEndLine]
      split
      · exact List.subset_cons_self _ _
      · exact List.Subset.refl _

/-- The blocks that have fewer lines after their first one are tied to the text. -/
def TiedBelow (v : Vocabulary) (whole : List Line) (bound : Nat) : Prop :=
  ∀ line rest, rest.length < bound → Stands whole line → Within whole rest →
    Tied whole (fun result => Within whole result.2) (block v line.1 line.2 rest)

/-- What ends a conditional leaves lines of the text over, where shorter blocks
do. -/
theorem tied_afterBranch {predicate : Predicate Float} {yes : Rule Float} {bound : Nat}
    (hblocks : TiedBelow v whole bound) (hlines : Within whole lines)
    (hbound : lines.length ≤ bound) :
    Tied whole (fun result => Within whole result.2) (afterBranch v predicate yes lines) := by
  cases lines with
  | nil => exact .ok hlines
  | cons line others =>
      obtain ⟨number, text⟩ := line
      obtain ⟨hline, hothers⟩ := Within.cons_iff.mp hlines
      rw [List.length_cons] at hbound
      rw [afterBranch]
      split
      · cases others with
        | nil => exact .refuse hline _
        | cons line afterwards =>
            obtain ⟨hother, hafterwards⟩ := Within.cons_iff.mp hothers
            rw [List.length_cons] at hbound
            rw [alternative]
            split
            · exact .refuse hother _
            · refine .bind (hblocks line afterwards (by omega) hother hafterwards)
                fun result hkept => ?_
              exact .ok (hkept.of_subset (dropEndLine_subset _))
      · split
        · next conditional hconditional =>
          have hinner := hline.part (isInfix_of_elseIf? hconditional)
          refine .bind (hblocks (number, conditional) others (by omega) hinner hothers)
            fun result hkept => ?_
          exact .ok hkept
        · exact .ok (hlines.of_subset (dropEndLine_subset ((number, text) :: others)))

/-- A block leaves lines of the text over. -/
theorem tied_block {rest : List Line} (hline : Stands whole line) (hrest : Within whole rest) :
    Tied whole (fun result => Within whole result.2) (block v line.1 line.2 rest) := by
  -- A branch is read from fewer lines than its block, though not always from the next ones.
  induction hlength : rest.length using Nat.strongRecOn generalizing line rest with
  | ind length ih =>
      have hblocks : TiedBelow v whole length := fun line rest hless hline hrest =>
        ih rest.length hless hline hrest rfl
      by_cases hwhole : ∀ condition, ifThen? line.2 ≠ some (condition, [])
      · rw [block_of_whole hwhole]
        split
        · exact .refuse hline _
        · exact .bind (.onLine hline (convertsWithin_readRule line.2)) fun rule _ => .ok hrest
      · push Not at hwhole
        obtain ⟨condition, hif⟩ := hwhole
        rw [block_of_conditional hif]
        have hcondition := (convertsWithin_readPredicate (v := v) condition).mono
          (parts_of_ifThen? hif).1
        refine .bind (.onLine hline hcondition) fun predicate _ => ?_
        cases rest with
        | nil => exact .refuse hline _
        | cons next following =>
            obtain ⟨hnext, hfollowing⟩ := Within.cons_iff.mp hrest
            rw [List.length_cons] at hlength
            rw [branches]
            split
            · exact .refuse hline _
            · refine .bind (hblocks next following (by omega) hnext hfollowing).reached
                fun result hresult => ?_
              obtain ⟨yes, left⟩ := result
              obtain ⟨hread, hleft⟩ := hresult
              have hshort := length_le_of_block hread
              exact tied_afterBranch hblocks hleft (by omega)

theorem tied_readFreshBlock {rest : List Line} (hline : Stands whole line)
    (hrest : Within whole rest) :
    Tied whole (fun result => Within whole result.2.1) (readFreshBlock v line rest) := by
  rw [readFreshBlock]
  split
  · exact .refuse hline _
  · exact (tied_block hline hrest).of_map

/-- Phases fail with errors that are tied to their lines. -/
theorem tied_readPhases {ended : Bool} (hlines : Within whole lines) :
    Tied whole Anything (readPhases v ended lines) := by
  obtain ⟨length, hlength⟩ : ∃ length, lines.length = length := ⟨_, rfl⟩
  induction length using Nat.strongRecOn generalizing ended lines with
  | ind length ih =>
      rw [readPhases.eq_def]
      split
      · exact .ok trivial
      · next line rest =>
        obtain ⟨hline, hrest⟩ := Within.cons_iff.mp hlines
        rw [List.length_cons] at hlength
        refine .bind (tied_phaseHeader? hline) fun header? hheader => ?_
        cases header? with
        | none =>
            refine .bind (tied_readFreshBlock hline hrest) fun result hleft => ?_
            obtain ⟨rule, left, hshort⟩ := result
            exact .bind (ih left.length (by omega) hleft rfl) fun phases _ => .ok trivial
        | some header =>
            dsimp only
            split
            · exact .refuse hline _
            · split
              · split
                · exact .refuse hline _
                · next next following =>
                  obtain ⟨hnext, hfollowing⟩ := Within.cons_iff.mp hrest
                  rw [List.length_cons] at hlength
                  refine .bind (tied_readFreshBlock hnext hfollowing) fun result hleft => ?_
                  obtain ⟨rule, left, hshort⟩ := result
                  exact .bind (ih left.length (by omega) hleft rfl) fun phases _ => .ok trivial
              · have hinline := hline.part (hheader header rfl)
                refine .bind (.onLine hinline (convertsWithin_readRule _)) fun rule _ => ?_
                exact .bind (ih rest.length (by omega) hrest rfl) fun phases _ => .ok trivial

/-! ## Sections -/

/-- A section that is taken stands in the text, with all its lines and the lines
after it. -/
theorem within_of_part? {expected : List Section} {part : Part}
    (h : part? expected lines = some part) (hlines : Within whole lines) :
    (∃ text, Stands whole (part.line, text)) ∧ Within whole part.body ∧ Within whole part.rest := by
  cases lines with
  | nil => cases h
  | cons line rest =>
      obtain ⟨number, text⟩ := line
      obtain ⟨hline, hrest⟩ := Within.cons_iff.mp hlines
      simp only [part?] at h
      split at h
      · cases h
      · next kind inline hheader =>
        split at h
        · cases h
          refine ⟨⟨text, hline⟩, ?_, hrest.of_subset (List.dropWhile_sublist _).subset⟩
          have hinline : inline <:+: text := by
            obtain ⟨gap, _, ⟨_, rfl⟩ | ⟨written, rfl, rfl⟩⟩ :=
              inline?_eq_some_iff.mp (header?_eq_some_iff.mp hheader)
            · exact List.nil_infix
            · refine (trim_isInfix written).trans ?_
              exact (List.suffix_append_of_suffix (List.suffix_cons _ _)).isInfix
          have hbody : Within whole (rest.takeWhile fun line => !isHeader line) :=
            hrest.of_subset (List.takeWhile_sublist _).subset
          split
          · exact hbody
          · exact Within.cons_iff.mpr ⟨hline.part hinline, hbody⟩
        · cases h

theorem stands_front (hlines : Within whole lines) {last : Nat} {text : List Char}
    (hlast : Stands whole (last, text)) : ∃ text, Stands whole (frontLine last lines, text) := by
  cases lines with
  | nil => exact ⟨text, hlast⟩
  | cons line rest => exact ⟨line.2, (Within.cons_iff.mp hlines).1⟩

theorem tied_readName (hline : Stands whole line) : Tied whole Anything (readName line) := by
  obtain ⟨number, text⟩ := line
  rw [readName]
  split
  · split
    · exact .ok trivial
    · exact .refuse hline _
  · exact .refuse hline _

theorem tied_readProcesses {last : Nat} {text : List Char} (hlines : Within whole lines)
    (hlast : Stands whole (last, text)) :
    Tied whole (fun result => Within whole result.2) (readProcesses last lines) := by
  cases lines with
  | nil => exact .refuse hlast _
  | cons line rest =>
      obtain ⟨number, text⟩ := line
      obtain ⟨hline, hrest⟩ := Within.cons_iff.mp hlines
      rw [readProcesses]
      split
      · exact .refuse hline _
      · next digits hcount =>
        obtain ⟨behind, hword, hcount⟩ := Option.bind_eq_some_iff.mp hcount
        obtain ⟨written, hcolon, hcount⟩ := Option.bind_eq_some_iff.mp hcount
        obtain ⟨hnumber, before, after, _, _, rfl⟩ := exists_of_digitsAtEnd? hcount
        have hbehind : behind <:+ text := by
          rw [Option.orElse_eq_orElse, Option.orElse_eq_or, Option.or_eq_some_iff] at hword
          rcases hword with hword | ⟨_, hword⟩
          · exact isSuffix_of_after? hword
          · exact isSuffix_of_after? hword
        have hwritten := (isSuffix_of_after? hcolon).trans ((trimLeft_isSuffix _).trans hbehind)
        have hdigits : digits <:+: text :=
          (List.infix_append before digits after).trans hwritten.isInfix
        refine .bind (.number hline hnumber (keepsNumbers_of_isInfix hdigits)) fun count _ => ?_
        split
        · exact .refuse hline _
        · exact .ok hrest

theorem tied_readStateSection {last : Nat} {text : List Char} (hlines : Within whole lines)
    (hlast : Stands whole (last, text)) :
    Tied whole (fun result => Within whole result.2) (readStateSection last lines) := by
  obtain ⟨_, hfront⟩ := stands_front hlines hlast
  rw [readStateSection]
  split
  · exact .refuse hfront _
  · next part hpart =>
    obtain ⟨⟨_, hheader⟩, hbody, hrest⟩ := within_of_part? hpart hlines
    split
    · next number text hone =>
      rw [hone] at hbody
      have hline := (Within.cons_iff.mp hbody).1
      split
      · exact .ok hrest
      · exact .refuse hline _
    · exact .refuse hheader _

theorem tied_readParameter (hline : Stands whole line) :
    Tied whole Anything (readParameter line) := by
  obtain ⟨number, text⟩ := line
  rw [readParameter]
  split
  · exact .refuse hline _
  · split
    · exact .ok trivial
    · exact .refuse hline _

theorem tied_readValues {processes header : Nat} {text : List Char} {body : List Line}
    (hheader : Stands whole (header, text)) (hbody : Within whole body) :
    Tied whole Anything (readValues processes header body) := by
  rw [readValues.eq_def]
  split
  · have hline := (Within.cons_iff.mp hbody).1
    split
    · exact .refuse hline _
    · dsimp only
      split
      · exact .refuse hline _
      · split
        · exact .refuse hline _
        · exact .ok trivial
  · exact .refuse hheader _

/-- The two sides of an initial rule stand on its line. -/
theorem isInfix_of_initialSidesFrom {seen text left right : List Char}
    (h : initialSidesFrom seen text = some (left, right)) : right <:+: text := by
  induction text generalizing seen with
  | nil => cases h
  | cons c rest ih =>
      rw [initialSidesFrom] at h
      split at h
      · next found hfound =>
        cases h
        obtain ⟨sign, _, hsign⟩ :=
          List.exists_of_findSome?_eq_some (Option.eq_some_of_filter_eq_some hfound)
        exact (isSuffix_of_after? hsign).isInfix
      · exact (ih h).trans (List.suffix_cons c rest).isInfix

theorem tied_readInitialRule {header : Nat} {text : List Char} {body : List Line}
    (hheader : Stands whole (header, text)) (hbody : Within whole body) :
    Tied whole (fun rule => ∃ text, Stands whole (rule.1, text))
      (readInitialRule v header body) := by
  rw [readInitialRule.eq_def]
  split
  · next number text =>
    have hline := (Within.cons_iff.mp hbody).1
    split
    · exact .refuse hline _
    · next left right hsides =>
      refine .bind (.onLine hline (convertsWithin_readTarget _ _)) fun _ _ => ?_
      refine .bind (.onLine hline ((convertsWithin_readExpr _).mono
        (isInfix_of_initialSidesFrom hsides))) fun rule _ => ?_
      exact .ok ⟨text, hline⟩
  · exact .refuse hheader _

theorem tied_readChannel {processes : Nat} (hline : Stands whole line) :
    Tied whole Anything (readChannel processes line) := by
  obtain ⟨number, text⟩ := line
  rw [readChannel]
  dsimp only
  split
  · exact .ok trivial
  · split
    · exact .refuse hline _
    · split
      · exact .ok trivial
      · split
        · split
          · exact .refuse hline _
          · exact .ok trivial
        · exact .refuse hline _

theorem tied_readLeader {processes : Nat} (hline : Stands whole line) :
    Tied whole Anything (readLeader processes line) := by
  obtain ⟨number, text⟩ := line
  rw [readLeader]
  split
  · exact .refuse hline _
  · next digits hfound =>
    obtain ⟨rest, hword, hfound⟩ := Option.bind_eq_some_iff.mp hfound
    obtain ⟨written, hsign, hfound⟩ := Option.bind_eq_some_iff.mp hfound
    obtain ⟨hnumber, before, after, _, _, rfl⟩ := exists_of_digitsAtEnd? hfound
    have hwritten := (isSuffix_of_after? hsign).trans
      ((trimLeft_isSuffix _).trans (isSuffix_of_after? hword))
    have hkeeps := (keepsNumbers_lower text).trans (keepsNumbers_of_isInfix
      ((List.infix_append before digits after).trans hwritten.isInfix))
    refine .bind (.number hline hnumber hkeeps) fun leader _ => ?_
    split
    · exact .ok trivial
    · exact .refuse hline _

/-- What an option's value is read from stands in the text. -/
theorem exists_of_findOption? {name : String} {admits : Option Char → Bool}
    {value : List Char → Option (List Char)} {previous : Option Char} {text found : List Char}
    (h : findOption? name admits value previous text = some found) :
    ∃ rest, rest <:+ text ∧ value rest = some found := by
  induction text generalizing previous with
  | nil => cases h
  | cons c text ih =>
      rw [findOption?] at h
      split at h
      · next here hhere =>
        cases h
        split at hhere
        · obtain ⟨rest, hrest, hvalue⟩ := Option.bind_eq_some_iff.mp hhere
          obtain ⟨behind, hname, hrest⟩ := Option.bind_eq_some_iff.mp hrest
          obtain ⟨following, hsign, hrest⟩ := Option.bind_eq_some_iff.mp hrest
          cases hrest
          refine ⟨_, ?_, hvalue⟩
          exact (trimLeft_isSuffix following).trans ((isSuffix_of_after? hsign).trans
            ((trimLeft_isSuffix behind).trans (isSuffix_of_after? hname)))
        · cases hhere
      · obtain ⟨rest, hrest, hvalue⟩ := ih h
        exact ⟨rest, hrest.trans (List.suffix_cons c text), hvalue⟩

theorem tied_readModel {process : Option Int} {number : Nat} {text : List Char}
    (hline : Stands whole (number, text)) :
    Tied whole Anything (readModel process number text) := by
  simp only [readModel]
  split
  · exact .ok trivial
  · split
    · split
      · exact .refuse hline _
      · next digits hdigits =>
        obtain ⟨rest, hrest, hvalue⟩ := exists_of_findOption? hdigits
        obtain ⟨⟨found, behind⟩, hnumber, rfl⟩ := Option.map_eq_some_iff.mp hvalue
        obtain ⟨hisNumber, rfl⟩ := eq_of_number? hnumber
        have hkeeps := (keepsNumbers_of_isInfix (trim_isInfix text)).trans
          ((keepsNumbers_lower _).trans (keepsNumbers_of_isInfix
            ((List.prefix_append found behind).isInfix.trans hrest.isInfix)))
        split
        · exact .bind (.number hline hisNumber hkeeps) fun count _ => .ok trivial
        · exact .refuse hline _
    · split
      · split
        · exact .ok trivial
        · exact .refuse hline _
      · exact .refuse hline _

theorem parts_of_modelEntry? {text digits model : List Char}
    (h : modelEntry? text = some (digits, model)) :
    isNumber digits = true ∧ digits <:+: text ∧ model <:+: text := by
  obtain ⟨behind, hword, h⟩ := Option.bind_eq_some_iff.mp h
  obtain ⟨start, hstart, h⟩ := Option.bind_eq_some_iff.mp h
  obtain ⟨⟨found, rest⟩, hnumber, h⟩ := Option.bind_eq_some_iff.mp h
  obtain ⟨written, hcolon, h⟩ := Option.bind_eq_some_iff.mp h
  dsimp only at h
  split at h
  · cases h
  · cases h
    obtain ⟨hisNumber, rfl⟩ := eq_of_number? hnumber
    have hstart := (isSuffix_of_blanks? hstart).trans (isSuffix_of_afterAnyCase? hword)
    refine ⟨hisNumber, (List.prefix_append _ _).isInfix.trans hstart.isInfix, ?_⟩
    refine ((trimLeft_isSuffix written).trans ((isSuffix_of_after? hcolon).trans ?_)).isInfix
    exact (trimLeft_isSuffix rest).trans ((List.suffix_append _ _).trans hstart)

theorem tied_readModels {processes : Nat} {models : List ModelSpec}
    (hlines : Within whole lines) : Tied whole Anything (readModels processes models lines) := by
  induction lines generalizing models with
  | nil => exact .ok trivial
  | cons line rest ih =>
      obtain ⟨number, text⟩ := line
      obtain ⟨hline, hrest⟩ := Within.cons_iff.mp hlines
      have hafter (spec : ModelSpec) : Tied whole Anything
          (if (models.any fun other => other.process == spec.process) = true then
            Source.refuse number (.duplicateModel (spec.process.map Int.toNat))
          else readModels processes (models ++ [spec]) rest) := by
        split
        · exact .refuse hline _
        · exact ih hrest
      rw [readModels]
      split
      · next digits model hentry =>
        obtain ⟨hnumber, hdigits, hmodel⟩ := parts_of_modelEntry? hentry
        refine .bind (.number hline hnumber (keepsNumbers_of_isInfix hdigits)) fun id _ => ?_
        split
        · exact .bind (tied_readModel (hline.part hmodel)) fun spec _ => hafter spec
        · have hrefused (fault : ProtocolFault) : Tied whole Anything
              (Source.refuse number fault : Except ParseError ModelSpec) := .refuse hline fault
          exact (hrefused _).bind fun spec _ => hafter spec
      · exact .bind (tied_readModel hline) fun spec _ => hafter spec

theorem tied_readMetrics (hlines : Within whole lines) :
    Tied whole Anything (readMetrics lines) := by
  refine .bind (.foldlM fun metrics line hline => .foldlM fun found word _ => ?_) fun metrics _ => ?_
  · rw [addMetric]
    split
    · exact .ok trivial
    · split
      · exact .ok trivial
      · exact .refuse (hlines line hline) _
  · exact .ok trivial

/-! ## Whole texts -/

/-- The initial rule, once read, stands on a line of the text. -/
def Opening.RuleStands (whole : List Line) (opening : Opening) : Prop :=
  ∀ rule ∈ opening.rule, ∃ text, Stands whole (rule.1, text)

theorem tied_read {opening : Opening} {processes : Nat} {part : Part}
    (hopening : opening.RuleStands whole) {text : List Char}
    (hheader : Stands whole (part.line, text)) (hbody : Within whole part.body) :
    Tied whole (Opening.RuleStands whole) (opening.read v processes part) := by
  rw [Opening.read]
  split
  · exact .refuse hheader _
  · dsimp only
    split
    · exact .refuse hheader _
    · split
      · refine .bind (.foldlM fun settings line hline => ?_) fun settings _ => .ok hopening
        exact .bind (tied_readParameter (hbody line hline)) fun parameter _ => .ok trivial
      · exact .bind (tied_readValues hheader hbody) fun values _ => .ok hopening
      · refine .bind (tied_readInitialRule hheader hbody) fun rule hrule => .ok ?_
        intro found hfound
        cases hfound
        exact hrule

theorem tied_readOpening {opening : Opening} {processes : Nat}
    (hopening : opening.RuleStands whole) (hlines : Within whole lines) :
    Tied whole (fun result => result.1.RuleStands whole ∧ Within whole result.2)
      (readOpening v processes opening lines) := by
  fun_induction readOpening v processes opening lines
  case case1 => exact .ok ⟨hopening, hlines⟩
  case case2 hpart ih =>
    obtain ⟨⟨_, hheader⟩, hbody, hrest⟩ := within_of_part? hpart hlines
    exact .bind (tied_read hopening hheader hbody) fun next hnext => ih next hnext hrest

theorem tied_check {opening : Opening} (hopening : opening.RuleStands whole) {last : Nat}
    {text : List Char} (hlast : Stands whole (last, text)) (hlines : Within whole lines) :
    Tied whole Anything (opening.check last lines) := by
  obtain ⟨_, hfront⟩ := stands_front hlines hlast
  rw [Opening.check]
  split
  · exact .refuse hfront _
  · next number rule hrule =>
    obtain ⟨_, hline⟩ := hopening _ hrule
    split
    · exact .refuse hline _
    · exact .ok trivial
  · exact .ok trivial

theorem tied_readChannelPart {processes : Nat} {settings : Settings Float} {part : Part}
    {text : List Char} (hheader : Stands whole (part.line, text))
    (hbody : Within whole part.body) :
    Tied whole Anything (readChannelPart processes settings part) := by
  rw [readChannelPart]
  split
  · exact .refuse hheader _
  · next line others hlines =>
    rw [hlines] at hbody
    obtain ⟨hline, hothers⟩ := Within.cons_iff.mp hbody
    cases others with
    | nil =>
        dsimp only
        split
        · exact .bind (tied_readChannel hline) fun guarantee _ => .ok trivial
        · exact .bind (tied_readLeader hline) fun leader _ => .ok trivial
    | cons other rest =>
        have hother := (Within.cons_iff.mp hothers).1
        dsimp only
        split
        · exact .bind (tied_readChannel hline) fun guarantee _ => .refuse hother _
        · exact .bind (tied_readLeader hline) fun leader _ => .refuse hother _

theorem tied_readChannelParts {processes : Nat} {seen : List Section} {settings : Settings Float}
    (hlines : Within whole lines) : Tied whole (fun result => Within whole result.2)
      (readChannelParts processes seen settings lines) := by
  fun_induction readChannelParts processes seen settings lines
  case case1 => exact .ok hlines
  case case2 hpart _ _ _ =>
    obtain ⟨⟨_, hheader⟩, _, _⟩ := within_of_part? hpart hlines
    exact .refuse hheader _
  case case3 hpart _ _ ih =>
    obtain ⟨⟨_, hheader⟩, hbody, hrest⟩ := within_of_part? hpart hlines
    exact .bind (tied_readChannelPart hheader hbody) fun next _ => ih next hrest

theorem tied_readOptional {kind : Section} {absent : α} {read : List Line → Except ParseError α}
    (hlines : Within whole lines)
    (hread : ∀ body, Within whole body → Tied whole Anything (read body)) :
    Tied whole (fun result => Within whole result.2) (readOptional kind absent read lines) := by
  rw [readOptional]
  split
  · exact .ok hlines
  · next part hpart =>
    obtain ⟨_, hbody, hrest⟩ := within_of_part? hpart hlines
    exact .bind (hread _ hbody) fun content _ => .ok hrest

/-- Every error about a text is tied to its lines of content. -/
theorem tied_readLines (first : Line) (lines : List Line) :
    Tied (first :: lines) Anything (readLines first lines) := by
  obtain ⟨hfirst, hlines⟩ := Within.cons_iff.mp (within_self (first :: lines))
  have hlast : Stands (first :: lines) ((first :: lines).getLast?.getD first) := by
    cases hfound : (first :: lines).getLast? with
    | none => exact hfirst
    | some last => exact within_self _ last (List.mem_of_getLast? hfound)
  rw [readLines]
  refine .bind (tied_readName hfirst) fun name _ => ?_
  refine .bind (tied_readProcesses hlines hlast) fun processes hprocesses => ?_
  refine .bind (tied_readStateSection hprocesses hlast) fun state hstate => ?_
  refine .bind (tied_readOpening (fun rule hrule => by cases hrule) hstate) fun opening hopening => ?_
  refine .bind (tied_check hopening.1 hlast hopening.2) fun _ _ => ?_
  refine .bind (tied_readChannelParts hopening.2) fun settings hsettings => ?_
  refine .bind (tied_readOptional hsettings fun body hbody => tied_readModels hbody)
    fun models hmodels => ?_
  refine .bind (tied_readOptional hmodels fun body hbody => tied_readPhases hbody)
    fun phases hphases => ?_
  refine .bind (tied_readOptional hphases fun body hbody => tied_readMetrics hbody)
    fun metrics hmetrics => ?_
  obtain ⟨content, remaining⟩ := metrics
  cases remaining with
  | cons line rest => exact .refuse (Within.cons_iff.mp hmetrics).1 _
  | nil =>
      constructor
      · intro error herror
        obtain ⟨fault, _, rfl⟩ := mapError_eq_error.mp herror
        exact .unplaced _
      · exact fun _ _ => trivial

/-- A line of a text by its number: it is neither blank nor a comment, and what
it holds is trimmed. -/
def IsContentLine (text : String) (number : Nat) (line : List Char) : Prop :=
  ∃ written, 1 ≤ number ∧ (Text.lines text.toList)[number - 1]? = some written ∧
    line = trim written ∧ line ≠ [] ∧ line.head? ≠ some '#'

theorem mem_contentLines {text : String} {number : Nat} {line : List Char} :
    (number, line) ∈ contentLines text.toList ↔ IsContentLine text number line := by
  rw [contentLines, numberedLines, List.mem_filter]
  constructor
  · rintro ⟨hmem, hheld⟩
    obtain ⟨⟨_, written⟩, hnumbered, heq⟩ := List.mem_map.mp hmem
    obtain ⟨rfl, rfl⟩ := Prod.mk.inj heq
    obtain ⟨⟨_, _⟩, hindexed, heq'⟩ := List.mem_map.mp hnumbered
    obtain ⟨rfl, rfl⟩ := Prod.mk.inj heq'
    obtain ⟨hnumber, hwritten⟩ := List.mk_mem_zipIdx_iff_le_and_getElem?_sub.mp hindexed
    simp only [Bool.and_eq_true, Bool.not_eq_true', List.isEmpty_eq_false_iff, bne_iff_ne]
      at hheld
    exact ⟨_, hnumber, hwritten, rfl, hheld⟩
  · rintro ⟨written, hnumber, hwritten, rfl, hheld⟩
    refine ⟨List.mem_map.mpr ⟨(number, written), List.mem_map.mpr ⟨(written, number), ?_, rfl⟩,
      rfl⟩, ?_⟩
    · exact List.mk_mem_zipIdx_iff_le_and_getElem?_sub.mpr ⟨hnumber, hwritten⟩
    · simpa only [Bool.and_eq_true, Bool.not_eq_true', List.isEmpty_eq_false_iff, bne_iff_ne]
        using hheld

theorem isTiedTo_of_readProtocol {text : String} {error : ParseError}
    (h : readProtocol text = .error error) : error.IsTiedTo (contentLines text.toList) := by
  rw [readProtocol] at h
  split at h
  · cases h
    exact .unplaced _
  · next first lines hlines =>
    rw [hlines]
    exact (tied_readLines first lines).error error h

/-- An error about a text that names a line names one that is neither blank nor
a comment.  Where something cannot be converted, the error names no line, but
what cannot be converted stands on such a line. -/
theorem errors_are_tied_to_lines {text : String} {error : ParseError}
    (h : readProtocol text = .error error) :
    (∀ number fault, error = .refused (some number) fault →
      ∃ (n : Nat) (line : List Char), number = (n : Int) ∧ IsContentLine text n line) ∧
    ∀ fault, error = .unconvertible fault →
      ∃ (n : Nat) (line : List Char), IsContentLine text n line ∧ fault.ArisesIn line := by
  have htied := isTiedTo_of_readProtocol h
  constructor
  · rintro number fault rfl
    cases htied with
    | placed hline =>
        rename_i line
        exact ⟨line.1, line.2, rfl, mem_contentLines.mp hline⟩
  · rintro fault rfl
    cases htied with
    | converted hline hfault =>
        rename_i line
        exact ⟨line.1, line.2, mem_contentLines.mp hline, hfault⟩

/-- A text whose update rule takes an aggregate over two senders with no comma
between them. -/
def unseparatedText : String :=
  "PROTOCOL unseparated\nPROCESSES: 2\nSTATE: x\nINITIAL VALUES: [0, 1]\n\nUPDATE RULE:\n" ++
    "# no comma\nx ← avg(inbox_from(1 2))"

/-- The list of senders is not refused at its line; what it holds stands there
all the same. -/
theorem unseparatedText_error_is_tied :
    ∃ fault, readProtocol unseparatedText = .error (.unconvertible fault) ∧
      fault = .integer (.malformed "1 2") ∧
      ∃ (n : Nat) (line : List Char), IsContentLine unseparatedText n line ∧
        fault.ArisesIn line := by
  have hread : readProtocol unseparatedText =
      .error (.unconvertible (.integer (.malformed "1 2"))) := by
    decide +kernel
  exact ⟨_, hread, rfl, (errors_are_tied_to_lines hread).2 _ rfl⟩

/-- Not every error about a text is a refusal: a list of senders without a comma
between them, and the name of an aggregation with a letter of another script,
are not refused but cannot be converted. -/
theorem not_every_error_is_refused :
    (∃ fault, readProtocol unseparatedText = .error (.unconvertible fault)) ∧
    readExpr {} "mın(all)".toList = .error (.unconvertible (.aggregation "mın")) := by
  refine ⟨⟨.integer (.malformed "1 2"), ?_⟩, ?_⟩
  · decide +kernel
  · decide +kernel

end LossyConsensus.Source
