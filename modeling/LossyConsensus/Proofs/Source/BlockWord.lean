/-
# Words that stand on lines of their own

In a block `else` and `end` are lines of their own, and a line that begins with
`if` in any case has to open a conditional.  The readers of rules know none of
these words: there they may be names.  As long as no name is one of them, a rule
without a condition begins with none of them, and so it can stand on a line of a
block.
-/

import LossyConsensus.Proofs.Source.Conversion
import LossyConsensus.Proofs.Source.Block

namespace LossyConsensus.Source

open LossyConsensus.Decimal LossyConsensus.Protocol LossyConsensus.Text

variable {v : Vocabulary} {text left rest gap source word : List Char} {c : Char} {e : Expr Float}
  {rule : Rule Float}

/-- The words that the reader of blocks knows: `if` in any case. -/
def blockWords : List (List Char) :=
  ["else", "end", "if", "If", "iF", "IF"].map String.toList

/-- The part of a text up to its first blank. -/
def firstWord (text : List Char) : List Char :=
  text.takeWhile fun c => !isBlank c

/-- No name of the vocabulary is a word of blocks. -/
structure Vocabulary.SparesBlockWords (v : Vocabulary) : Prop where
  identifier : isIdentifier v.stateVar.toList = true
  stateVar : v.stateVar.toList ∉ blockWords
  declared : ∃ names, v.declared = some names ∧ ∀ name ∈ names, name.toList ∉ blockWords

/-! ## First words -/

theorem isAlpha_of_blockWords : ∀ word ∈ blockWords, ∀ c ∈ word, c.isAlpha = true := by
  decide

/-- A word of blocks begins with one of three letters. -/
theorem firstWord_of_front (hc : c ∉ ['e', 'i', 'I']) : firstWord (c :: text) ∉ blockWords := by
  have hfronts : ∀ word ∈ blockWords, ∀ c ∈ word.take 1, c ∈ ['e', 'i', 'I'] := by decide
  intro hmem
  cases hblank : isBlank c with
  | true =>
      rw [firstWord, List.takeWhile_cons_of_neg (by simp [hblank])] at hmem
      exact absurd hmem (by decide)
  | false =>
      rw [firstWord, List.takeWhile_cons_of_pos (by simp [hblank])] at hmem
      exact hc (hfronts _ hmem c (by simp))

theorem firstWord_eq_self (h : ∀ c ∈ text, isBlank c = false) : firstWord text = text := by
  refine List.takeWhile_eq_self_iff.mpr fun c hc => ?_
  rw [h c hc]
  rfl

theorem firstWord_append_blanks (hgap : Blanks gap) : firstWord (text ++ gap) = firstWord text := by
  have hnone : gap.takeWhile (fun c => !isBlank c) = [] := by
    cases gap with
    | nil => rfl
    | cons c gap => exact List.takeWhile_cons_of_neg (by simp [hgap.head])
  rw [firstWord, List.takeWhile_append, hnone, List.append_nil]
  split
  · next hlength => exact ((List.takeWhile_prefix _).eq_of_length hlength).symm
  · rfl

/-- A word of blocks at the front of a text ends before any character that is no
letter. -/
theorem firstWord_of_append (hc : c.isAlpha = false)
    (h : firstWord (left ++ c :: rest) ∈ blockWords) : firstWord left ∈ blockWords := by
  rw [firstWord, List.takeWhile_append] at h
  split at h
  · next hlength =>
    have hleft := (List.takeWhile_prefix _).eq_of_length hlength
    cases hblank : isBlank c with
    | true =>
        rw [List.takeWhile_cons_of_neg (by simp [hblank]), List.append_nil] at h
        rwa [firstWord, hleft]
    | false =>
        rw [List.takeWhile_cons_of_pos (by simp [hblank])] at h
        have halpha := isAlpha_of_blockWords _ h c (by simp)
        rw [hc] at halpha
        cases halpha
  · exact h

/-- What stands before a character that is no letter decides whether a trimmed
text begins with a word of blocks. -/
theorem firstWord_of_part (htrim : Trimmed (left ++ c :: rest)) (hc : c.isAlpha = false)
    (h : firstWord (trim left) ∉ blockWords) : firstWord (left ++ c :: rest) ∉ blockWords := by
  intro hmem
  have hfront := firstWord_of_append hc hmem
  rcases htrim.left_part with hnil | ⟨gap, hgap, hparts⟩
  · obtain ⟨front, back, hleading, hback, hparts⟩ := exists_trim left
    rw [hnil, List.append_nil] at hparts
    rw [hparts, ← List.nil_append (front ++ back),
      firstWord_append_blanks (hleading.append hback)] at hfront
    exact absurd hfront (by decide)
  · rw [hparts, firstWord_append_blanks hgap] at hfront
    exact h hfront

/-- A first word that holds something else than letters is no word of blocks. -/
theorem firstWord_of_solid (hleft : ∀ d ∈ left, isBlank d = false) (hblank : isBlank c = false)
    (hc : c.isAlpha = false) : firstWord (left ++ c :: rest) ∉ blockWords := by
  intro hmem
  have hsolid : ∀ d ∈ left, (!isBlank d) = true := fun d hd => by rw [hleft d hd]; rfl
  rw [firstWord, List.takeWhile_append_of_pos hsolid,
    List.takeWhile_cons_of_pos (by simp [hblank])] at hmem
  have halpha := isAlpha_of_blockWords _ hmem c (by simp)
  rw [hc] at halpha
  cases halpha

theorem firstWord_of_identifier (h : isIdentifier text = true) : firstWord text = text := by
  obtain ⟨first, rest, rfl, hfirst, hrest⟩ := exists_of_isIdentifier h
  refine firstWord_eq_self fun c hc => ?_
  rcases List.mem_cons.mp hc with rfl | hc
  · rcases hfirst with halpha | hmark
    · exact isBlank_of_word (.inl (by rw [isAsciiAlphanumeric, halpha, Bool.true_or]))
    · exact isBlank_of_word (.inr hmark)
  · exact isBlank_of_word (hrest c hc)

/-- A text whose small form begins with another letter begins with no word of
blocks. -/
theorem firstWord_of_lower {small : List Char} (hc : c ∉ ['e', 'i'])
    (h : c :: small <+: lower text) : firstWord text ∉ blockWords := by
  cases text with
  | nil => exact absurd (List.prefix_nil.mp h) (List.cons_ne_nil c small)
  | cons first text =>
      by_cases hfirst : first ∈ ['e', 'i', 'I']
      · have hascii : ∀ first ∈ ['e', 'i', 'I'],
            isSourceChar first = true ∧ first.toLower ∈ ['e', 'i'] := by decide
        rw [lower, lowerFrom_eq (hascii first hfirst).1, List.cons_prefix_cons] at h
        exact absurd (h.1 ▸ (hascii first hfirst).2) hc
      · exact firstWord_of_front hfirst

/-! ## Expressions -/

/-- A call begins with its own word. -/
theorem firstWord_of_call? {name : String} {found : List Char × List Char}
    (hname : ∀ c ∈ name.toList.take 1, ∀ d ∈ ['e', 'i', 'I'], isCaseOf c d = false)
    (hsome : name ≠ "") (h : call? name text = some found) : firstWord text ∉ blockWords := by
  obtain ⟨rest, hword, _⟩ := Option.bind_eq_some_iff.mp h
  obtain ⟨written, rfl, hcase⟩ := parts_of_afterAnyCase? hword
  cases hparts : name.toList with
  | nil => exact absurd (String.toList_eq_nil_iff.mp hparts) hsome
  | cons small more =>
      rw [hparts] at hcase
      cases hcase with
      | @cons _ c _ written hc _ =>
          refine firstWord_of_front fun hmem => ?_
          rw [hname small (by simp [hparts]) c hmem] at hc
          cases hc

theorem firstWord_of_aggregateCall? {found : List Char × List Char}
    (h : aggregateCall? text = some found) : firstWord text ∉ blockWords := by
  have hcall := Option.eq_some_of_filter_eq_some h
  obtain ⟨⟨name, how⟩, hmem, hfound⟩ := List.exists_of_findSome?_eq_some hcall
  have hnames : ∀ entry ∈ aggregations, entry.1 ≠ "" ∧
      ∀ c ∈ entry.1.toList.take 1, ∀ d ∈ ['e', 'i', 'I'], isCaseOf c d = false := by decide
  exact firstWord_of_call? (hnames _ hmem).2 (hnames _ hmem).1 hfound

theorem isAlpha_of_lastOperator? (h : lastOperator? text = some (left, c, rest)) :
    c.isAlpha = false := by
  have hsigns : ∀ c ∈ ['+', '-', '*', '/'], c.isAlpha = false := by decide
  rcases lastOperator?_eq_some h with hcut | ⟨_, hcut⟩
  · exact hsigns c (List.mem_append_left ['*', '/'] (cutOperator?_eq_some (by decide) hcut).2.1)
  · exact hsigns c (List.mem_append_right ['+', '-'] (cutOperator?_eq_some (by decide) hcut).2.1)

namespace Vocabulary.SparesBlockWords

theorem ownTokens (hv : v.SparesBlockWords) : ∀ token ∈ v.ownTokens, firstWord token ∉ blockWords := by
  have hname : firstWord v.stateVar.toList ∉ blockWords := by
    rw [firstWord_of_identifier hv.identifier]
    exact hv.stateVar
  have hmarked : ∀ {c : Char} {rest : List Char}, c.isAlpha = false →
      firstWord (v.stateVar.toList ++ c :: rest) ∉ blockWords :=
    fun hc hmem => hname (firstWord_of_append hc hmem)
  intro token htoken
  simp only [Vocabulary.ownTokens, List.mem_cons, List.not_mem_nil, or_false] at htoken
  rcases htoken with rfl | rfl | rfl | rfl | rfl
  · decide
  · exact hname
  · exact hmarked (by decide)
  · exact hmarked (by decide)
  · exact hmarked (by decide)

theorem firstWord_of_readOperand (hv : v.SparesBlockWords) (h : readOperand v text = .ok e) :
    firstWord text ∉ blockWords := by
  have hother {found : Option (List Char)} (hfound : otherArgument? text = some found) :
      firstWord text ∉ blockWords := by
    obtain ⟨rest, hafter, _⟩ := Option.bind_eq_some_iff.mp hfound
    rw [after?_eq_some_iff.mp hafter]
    exact firstWord_of_front (by decide)
  simp only [readOperand] at h
  split at h
  · next hcall => exact firstWord_of_aggregateCall? hcall
  · split at h
    · next hvalue => exact firstWord_of_lower (by decide) (startsWith_iff.mp hvalue)
    · split at h
      · next hfound => exact hother hfound
      · next hfound => exact hother hfound
      · split at h
        · next hown => exact hv.ownTokens text (List.contains_iff_mem.mp hown)
        · split at h
          · cases h
          · next hidentifier =>
            split at h
            · cases h
            · next hdeclared =>
              obtain ⟨names, hnames, hspared⟩ := hv.declared
              have hmem : String.ofList text ∈ names := by simpa [hnames] using hdeclared
              have hname := hspared _ hmem
              rw [String.toList_ofList] at hname
              rwa [firstWord_of_identifier (by simpa using hidentifier)]

/-- No expression begins with a word of blocks. -/
theorem firstWord_of_readExpr (hv : v.SparesBlockWords) (h : readExpr v source = .ok e) :
    firstWord (trim source) ∉ blockWords := by
  have htrim := trimmed_of_readExpr h
  fun_induction readExpr v source generalizing e
  case case1 => cases h
  case case2 source text hempty numeral hliteral =>
    have hform : IsNumeral text := readLiteral?_isSome_iff.mp (by rw [hliteral]; rfl)
    obtain ⟨c, rest, htext, hc⟩ := hform.front
    have hletter : ∀ c ∈ ['e', 'i', 'I'], ¬ (isDigit c = true ∨ c = '.' ∨ c = '-') := by decide
    rw [show trim source = c :: rest from htext]
    exact firstWord_of_front fun hmem => hletter c hmem hc
  case case3 source text hempty hliteral hstrip ih =>
    have henclosed : isEnclosed text = true := by
      cases henclosed : isEnclosed text with
      | true => rfl
      | false => exact absurd (stripEnclosing_eq_self henclosed) hstrip
    obtain ⟨body, htext, _⟩ := exists_of_isEnclosed henclosed
    rw [show trim source = '(' :: (body ++ [')']) from htext]
    exact firstWord_of_front (by decide)
  case case4 => cases h
  case case5 source text hempty hliteral hstrip left c right hlast hmissing ihleft ihright =>
    obtain ⟨l, hleft, _⟩ := bind_eq_ok.mp h
    have hparts : trim source = left ++ c :: right := lastOperator?_parts hlast
    have hc := isAlpha_of_lastOperator? hlast
    rw [hparts] at htrim ⊢
    exact firstWord_of_part htrim hc (ihleft hleft (trimmed_of_readExpr hleft))
  case case6 source text hempty hliteral hstrip hlast hsign ih =>
    obtain ⟨rest, hrest⟩ := List.head?_eq_some_iff.mp hsign
    rw [show trim source = '-' :: rest from hrest]
    exact firstWord_of_front (by decide)
  case case7 source text hempty hliteral hstrip hlast hsign =>
    exact hv.firstWord_of_readOperand h

end Vocabulary.SparesBlockWords

/-! ## Rules -/

theorem eq_of_isCaseOf_underscore (h : isCaseOf '_' c = true) : c = '_' := by
  have hsmall : c.toLower = '_' := by simpa [isCaseOf] using h
  cases hupper : c.isUpper with
  | false => rwa [toLower_eq_self hupper] at hsmall
  | true =>
      have hletter := forall_ascii (fun c => !c.isUpper || c.toLower != '_') (by decide)
        (toNat_lt_of_isAlpha (by rw [isAlpha_eq_or, hupper, Bool.true_or]))
      rw [hupper, hsmall] at hletter
      cases hletter

theorem firstWord_of_differentArguments? {arguments : List (List Char)}
    (h : differentArguments? text = some arguments) : firstWord text ∉ blockWords := by
  obtain ⟨found, hcall, _⟩ := Option.map_eq_some_iff.mp h
  obtain ⟨rest, hword, _⟩ := Option.bind_eq_some_iff.mp (Option.eq_some_of_filter_eq_some hcall)
  obtain ⟨written, rfl, hcase⟩ := parts_of_afterAnyCase? hword
  have hletters : ∀ small ∈ ['i', 'f'], ∀ {c : Char}, isCaseOf small c = true → isBlank c = false := by
    intro small hsmall c hc
    refine isBlank_eq_false (fun c => !(isCaseOf 'i' c || isCaseOf 'f' c)) (by decide) ?_
    simp only [List.mem_cons, List.not_mem_nil, or_false] at hsmall
    rcases hsmall with rfl | rfl
    · simp [hc]
    · simp [hc]
  cases hcase with
  | @cons _ a _ written ha hcase =>
    cases hcase with
    | @cons _ b _ written hb hcase =>
      cases hcase with
      | @cons _ c _ written hc hcase =>
        have hsolid : ∀ d ∈ [a, b], isBlank d = false := by
          rw [List.forall_mem_cons, List.forall_mem_singleton]
          exact ⟨hletters 'i' (by decide) ha, hletters 'f' (by decide) hb⟩
        rw [eq_of_isCaseOf_underscore hc]
        exact firstWord_of_solid hsolid (by decide) (by decide)

theorem firstWord_of_indexedName? {name : List Char} (h : indexedName? text = some name) :
    firstWord text ∉ blockWords := by
  simp only [indexedName?] at h
  split at h
  · next hform =>
    cases h
    rw [Bool.and_eq_true, List.contains_iff_mem] at hform
    have hname : ∀ c ∈ text.takeWhile isAsciiAlphanumeric, isBlank c = false :=
      fun c hc => isBlank_of_word (.inl (List.mem_takeWhile_imp hc))
    rw [← List.takeWhile_append_dropWhile (p := isAsciiAlphanumeric) (l := text)]
    have hindex := hform.2
    simp only [List.mem_cons, List.not_mem_nil, or_false] at hindex
    rcases hindex with hindex | hindex | hindex
    · rw [hindex]
      exact firstWord_of_solid hname (by decide) (by decide)
    · rw [hindex]
      exact firstWord_of_solid hname (by decide) (by decide)
    · rw [hindex]
      exact firstWord_of_solid hname (by decide) (by decide)
  · cases h

/-- No target is a word of blocks. -/
theorem Vocabulary.SparesBlockWords.firstWord_of_readTarget (hv : v.SparesBlockWords) {target : Target}
    (h : readTarget v text = .ok target) : firstWord text ∉ blockWords := by
  simp only [readTarget] at h
  split at h
  · next hname => exact firstWord_of_indexedName? hname
  · split at h
    · next hself =>
      rw [← String.toList_ofList (l := text), beq_iff_eq.mp hself]
      decide
    · split at h
      · next hidentifier =>
        split at h
        · next hname =>
          rw [firstWord_of_identifier hidentifier, ← String.toList_ofList (l := text),
            beq_iff_eq.mp hname]
          exact hv.stateVar
        · cases h
      · cases h

theorem exists_of_assignment? {right : List Char} (h : assignment? text = some (left, right)) :
    ∃ c rest, text = left ++ c :: rest ∧ c.isAlpha = false := by
  rw [assignment?, Option.orElse_eq_orElse, Option.orElse_eq_or, Option.or_eq_some_iff] at h
  rcases h with hcut | ⟨_, hcut⟩
  · have hparts := exists_of_cutFrom hcut
    refine ⟨'←', right, ?_, by decide⟩
    simpa using hparts
  · have hparts := exists_of_cutFrom hcut
    refine ⟨'<', '-' :: right, ?_, by decide⟩
    simpa using hparts

/-- No rule without a condition begins with a word of blocks. -/
theorem Vocabulary.SparesBlockWords.firstWord_of_readSimpleRule (hv : v.SparesBlockWords)
    (htrim : Trimmed text) (h : readSimpleRule v text = .ok rule) :
    firstWord text ∉ blockWords := by
  cases simpleRuleReads_of_readSimpleRule h with
  | ifDifferent harguments _ _ _ => exact firstWord_of_differentArguments? harguments
  | assign _ hassignment htarget _ =>
      obtain ⟨c, rest, hparts, hc⟩ := exists_of_assignment? hassignment
      rw [hparts] at htrim ⊢
      exact firstWord_of_part htrim hc (hv.firstWord_of_readTarget htarget)
  | @combine how _ _ hhow =>
      obtain ⟨before, after, hcombinations, _⟩ := List.lookup_eq_some_iff.mp hhow
      have hmem : (String.ofList (lower text), how) ∈ combinations := by
        rw [hcombinations]
        exact List.mem_append_right before List.mem_cons_self
      have hfronts : ∀ entry ∈ combinations,
          entry.1.toList.take 1 = ['a'] ∨ entry.1.toList.take 1 = ['m'] := by decide
      have hfront := hfronts _ hmem
      rw [String.toList_ofList] at hfront
      have hbegins := List.take_prefix 1 (lower text)
      rcases hfront with ha | hm
      · rw [ha] at hbegins
        exact firstWord_of_lower (by decide) hbegins
      · rw [hm] at hbegins
        exact firstWord_of_lower (by decide) hbegins
  | value _ _ _ hvalue =>
      have hword := hv.firstWord_of_readExpr hvalue
      rwa [htrim.trim_self] at hword

/-! ## Lines -/

theorem isBlockKeyword_of_firstWord (h : firstWord text ∉ blockWords) :
    isBlockKeyword text = false := by
  rw [Bool.eq_false_iff]
  intro hkeyword
  simp only [isBlockKeyword, Bool.or_eq_true, beq_iff_eq, startsWith_iff] at hkeyword
  rcases hkeyword with (rfl | rfl) | ⟨rest, rfl⟩
  · exact h (by decide)
  · exact h (by decide)
  · have helse : firstWord ("else ".toList ++ rest) = "else".toList := rfl
    exact h (by rw [helse]; decide)

/-- What small letters beyond ASCII are the small forms of lies after the letter
`i`, as do those letters themselves. -/
theorem shifted_letters : ∀ run ∈ capitalRuns, 105 < run.first + run.shift := by
  decide +kernel

/-- The small form of a character beyond ASCII begins with none of three
characters, that of the dotted capital I apart. -/
theorem lowerChar_not_mem (hascii : ¬ c.toNat < 128) (hdotted : c.toNat ≠ 0x130) :
    ∀ d ∈ lowerChar c, d ∉ ['i', 'f', ' '] := by
  have hlow : ∀ d ∈ ['i', 'f', ' '], 0 < d.toNat ∧ d.toNat ≤ 105 := by decide
  intro d hd hmem
  obtain ⟨hpositive, hmost⟩ := hlow d hmem
  simp only [lowerChar, if_neg hascii, beq_iff_eq, hdotted, if_false] at hd
  split at hd
  · next run hrun =>
    have hshift := shifted_letters run (List.mem_of_find?_eq_some hrun)
    have hrange := List.find?_some hrun
    simp only [Bool.and_eq_true, decide_eq_true_eq] at hrange
    obtain rfl := List.mem_singleton.mp hd
    have hpoint := toNat_ofNat_of_pos hpositive
    omega
  · obtain rfl := List.mem_singleton.mp hd
    omega

/-- Where a small form begins with one of three characters, the text begins with
it in some case, or with the dotted capital I. -/
theorem exists_of_lowerFrom {before shown : List Char} (hc : c ∈ ['i', 'f', ' '])
    (h : lowerFrom before text = c :: shown) :
    ∃ d rest, text = d :: rest ∧
      ((d.toNat < 128 ∧ d.toLower = c ∧ shown = lowerFrom (d :: before) rest) ∨
        (c = 'i' ∧ shown.head? = some (Char.ofNat 0x307))) := by
  cases text with
  | nil => cases h
  | cons d rest =>
      refine ⟨d, rest, rfl, ?_⟩
      by_cases hascii : d.toNat < 128
      · have hsigma : ¬ (d.toNat == 0x3a3) = true := by rw [beq_iff_eq]; omega
        have hsmall : lowerChar d = [d.toLower] := by simp only [lowerChar, if_pos hascii]
        rw [lowerFrom, if_neg hsigma, hsmall, List.singleton_append, List.cons.injEq] at h
        exact .inl ⟨hascii, h.1, h.2.symm⟩
      · by_cases hdotted : d.toNat = 0x130
        · have hsmall : lowerChar d = ['i', Char.ofNat 0x307] := by
            simp only [lowerChar, if_neg hascii]
            rw [if_pos (beq_iff_eq.mpr hdotted)]
          have hsigma : ¬ (d.toNat == 0x3a3) = true := by rw [beq_iff_eq]; omega
          rw [lowerFrom, if_neg hsigma, hsmall] at h
          cases h
          exact .inr ⟨rfl, rfl⟩
        · exfalso
          rw [lowerFrom] at h
          split at h
          · split at h
            · cases h
              exact absurd hc (by decide)
            · cases h
              exact absurd hc (by decide)
          · cases hsmall : lowerChar d with
            | nil => exact lowerChar_ne_nil d hsmall
            | cons first more =>
                rw [hsmall, List.cons_append, List.cons.injEq] at h
                exact lowerChar_not_mem hascii hdotted first (by rw [hsmall]; exact List.mem_cons_self)
                  (h.1 ▸ hc)

theorem startsWith_if_of_firstWord (h : firstWord text ∉ blockWords) :
    startsWith "if ".toList (lower text) = false := by
  have hletters : ∀ {small c : Char}, c.toNat < 128 → c.toLower = small →
      small ∈ ['i', 'f', ' '] → c ∈ [small, small.toUpper] := by
    intro small c hascii hsmall hmem
    have hall := forall_ascii (fun c => !(['i', 'f', ' '].contains c.toLower) ||
      [c.toLower, c.toLower.toUpper].contains c) (by decide) hascii
    rw [hsmall, List.contains_iff_mem.mpr hmem] at hall
    exact List.contains_iff_mem.mp hall
  rw [Bool.eq_false_iff, Ne, startsWith_iff]
  rintro ⟨shown, hshown⟩
  obtain ⟨a, rest, rfl, ⟨hi, ha, hrest⟩ | ⟨_, hmark⟩⟩ :=
    exists_of_lowerFrom (by decide) hshown.symm
  · obtain ⟨b, more, rfl, ⟨hf, hb, hmore⟩ | ⟨hother, _⟩⟩ :=
      exists_of_lowerFrom (by decide) hrest.symm
    · obtain ⟨c, last, rfl, ⟨hspace, hc, _⟩ | ⟨hother, _⟩⟩ :=
        exists_of_lowerFrom (by decide) hmore.symm
      · have hblank : ∀ c ∈ [' ', ' '.toUpper], (!isBlank c) = false := by decide
        have hpair : ∀ a ∈ ['i', 'i'.toUpper], ∀ b ∈ ['f', 'f'.toUpper],
            [a, b] ∈ blockWords ∧ ∀ c ∈ [a, b], (!isBlank c) = true := by decide
        obtain ⟨hmem, hsolid⟩ := hpair a (hletters hi ha (by decide)) b (hletters hf hb (by decide))
        have hgap : ∀ d ∈ (c :: last).head?, (!isBlank d) = false := by
          rintro d hd
          cases hd
          exact hblank c (hletters hspace hc (by decide))
        have hfirst : firstWord ([a, b] ++ c :: last) = [a, b] := takeWhile_run hsolid hgap
        exact h (hfirst ▸ hmem)
      · cases hother
    · cases hother
  · cases hmark

end LossyConsensus.Source
