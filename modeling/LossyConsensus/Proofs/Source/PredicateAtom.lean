/-
# The reader of atoms

Atoms are compared in small letters, with one space for every run of blanks.  A word with
an argument in parentheses keeps its shape in this form, and the blanks that remain around
the argument are taken away when it is read.
-/

import LossyConsensus.Proofs.Source.PredicatePlacement

namespace LossyConsensus.Source

open LossyConsensus.Decimal LossyConsensus.Protocol LossyConsensus.Text

variable {word : String} {p : Predicate Float} {c : Char}
  {text gap front argument digits back rest : List Char}

/-! ## Runs of blanks -/

theorem squeeze_cons (hc : isBlank c = false) (rest : List Char) :
    squeeze (c :: rest) = c :: squeeze rest := by
  cases rest with
  | nil => simp only [squeeze, hc, Bool.false_eq_true, if_false]
  | cons d rest => rw [squeeze, hc, if_neg Bool.false_ne_true]

theorem squeeze_append (h : ∀ c ∈ text, isBlank c = false) (rest : List Char) :
    squeeze (text ++ rest) = text ++ squeeze rest := by
  induction text with
  | nil => rfl
  | cons c text ih =>
      rw [List.forall_mem_cons] at h
      rw [List.cons_append, squeeze_cons h.1, ih h.2, List.cons_append]

/-- A run of blanks before another character becomes one space. -/
theorem squeeze_blanks (hgap : Blanks gap) (hnil : gap ≠ []) (hc : isBlank c = false) :
    squeeze (gap ++ c :: rest) = ' ' :: squeeze (c :: rest) := by
  induction gap with
  | nil => exact absurd rfl hnil
  | cons d gap ih =>
      cases gap with
      | nil =>
          rw [List.singleton_append, squeeze, hgap.head, if_pos rfl, hc, if_neg Bool.false_ne_true]
      | cons other gap =>
          rw [List.cons_append, List.cons_append, squeeze, hgap.head, if_pos rfl, hgap.tail.head,
            if_pos rfl, ← List.cons_append]
          exact ih hgap.tail (List.cons_ne_nil other gap)

theorem exists_squeeze_blanks (hgap : Blanks gap) (hc : isBlank c = false) (rest : List Char) :
    ∃ gap', Blanks gap' ∧ squeeze (gap ++ c :: rest) = gap' ++ squeeze (c :: rest) := by
  by_cases hnil : gap = []
  · subst hnil
    exact ⟨[], .nil, rfl⟩
  · exact ⟨[' '], blanks_space, squeeze_blanks hgap hnil hc⟩

/-- A word with an argument in parentheses keeps this shape when blanks are squeezed. -/
theorem exists_squeeze_call (hword : ∀ c ∈ text, isBlank c = false) (hgap : Blanks gap)
    (hfront : Blanks front) (hback : Blanks back) (hargument : argument ≠ [])
    (hplain : ∀ c ∈ argument, isBlank c = false) :
    ∃ gap' front' back', Blanks gap' ∧ Blanks front' ∧ Blanks back' ∧
      squeeze (text ++ (gap ++ '(' :: (front ++ argument ++ back ++ [')']))) =
        text ++ (gap' ++ '(' :: (front' ++ argument ++ back' ++ [')'])) := by
  obtain ⟨first, more, rfl⟩ := List.exists_cons_of_ne_nil hargument
  obtain ⟨gap', hgap', hsqueeze⟩ := exists_squeeze_blanks hgap (c := '(') (by decide)
    (front ++ first :: more ++ back ++ [')'])
  obtain ⟨front', hfront', hsqueezeFront⟩ := exists_squeeze_blanks hfront
    (hplain first List.mem_cons_self) (more ++ (back ++ [')']))
  obtain ⟨back', hback', hsqueezeBack⟩ := exists_squeeze_blanks hback (c := ')') (by decide) []
  refine ⟨gap', front', back', hgap', hfront', hback', ?_⟩
  have hinner : squeeze (front ++ first :: more ++ back ++ [')']) =
      front' ++ first :: more ++ back' ++ [')'] := by
    have hparts : front ++ first :: more ++ back ++ [')'] =
        front ++ first :: (more ++ (back ++ [')'])) := by simp
    have hmore : squeeze (first :: (more ++ (back ++ [')']))) =
        first :: more ++ squeeze (back ++ [')']) :=
      squeeze_append hplain (back ++ [')'])
    rw [hparts, hsqueezeFront, hmore, hsqueezeBack, squeeze_cons (by decide)]
    simp [squeeze]
  rw [squeeze_append hword, hsqueeze, squeeze_cons (by decide), hinner]

/-! ## The form that is compared -/

/-- The form in which the reader of atoms compares a text. -/
def compact (text : List Char) : List Char :=
  squeeze (lower text)

/-- The reader of atoms for the state variable `x`, on the compared form of a text. -/
def readCompact (text compared : List Char) : Except RuleError (Predicate Float) :=
  let isAbout (word : String) : Bool :=
    compared == word.toList || compared == word.toList ++ enclosed ['x']
  if isAbout "received_any" then .ok .receivedAny
  else if isAbout "received_all" then .ok .receivedAll
  else if isAbout "received_majority" then .ok .receivedMajority
  else if compared == "self is leader".toList then .ok .isLeader
  else match (argumentOf? "received_diff" compared).filter (·.all isWord) with
    | some found =>
        if found.all (· == ['x']) then .ok (.receivedDiff "x")
        else .error (.refused (.diffVariable "x" ((found.map String.ofList).getD "")))
    | none =>
      if startsWith "received_at_least".toList compared then
        match numberArgument? "received_at_least" compared with
        | some digits => do
            let count ← (readNumber digits).mapError .unconvertible
            return .receivedAtLeast count
        | none => .error (.refused .atLeastArgument)
      else if startsWith "received_from".toList compared then
        match numberArgument? "received_from" compared with
        | some digits =>
            (({} : Vocabulary).readProcess "received_from" digits).map Predicate.receivedFrom
        | none => .error (.refused .fromArgument)
      else .error (.refused (.unknownPredicate (String.ofList text)))

theorem ofList_beq (found : List Char) (word : String) :
    (String.ofList found == word) = (found == word.toList) := by
  rw [Bool.eq_iff_iff, beq_iff_eq, beq_iff_eq]
  constructor
  · rintro rfl
    exact String.toList_ofList.symm
  · rintro rfl
    exact String.ofList_toList

theorem readAtom_eq (text : List Char) : readAtom {} text = readCompact text (compact text) := by
  have hname : String.ofList (lower ({} : Vocabulary).stateVar.toList) = "x" := by decide +kernel
  have hround : ∀ word : String,
      (word ++ "(" ++ "x" ++ ")").toList = word.toList ++ enclosed ['x'] := by
    intro word
    simp only [String.toList_append, List.append_assoc]
    rfl
  simp only [readAtom, readCompact, compact, hname, ofList_beq, hround, Option.all_map]
  rfl

theorem map_toLower_blanks (h : Blanks gap) : gap.map Char.toLower = gap := by
  apply map_toLower_eq
  intro c hc
  simpa using forall_isBlank (fun c => !c.isAlpha) (by decide) (h c hc)

theorem compact_of_isAbout (htext : IsSourceText text) (h : IsAbout word text)
    (hword : ∀ c ∈ word.toList, isBlank c = false) :
    compact text = word.toList ∨ compact text = word.toList ++ enclosed ['x'] := by
  rw [compact, lower_eq htext]
  cases h with
  | plain hhead =>
      rw [hhead]
      exact .inl (squeeze_eq_self hword)
  | @named head name hhead hname =>
      have hround : (enclosed name).map Char.toLower = enclosed ['x'] := by
        rw [enclosed, List.map_cons, List.map_append, hname]
        rfl
      rw [List.map_append, hhead, hround, squeeze_append hword]
      exact .inr rfl

theorem exists_compact_call (htext : IsSourceText text)
    (h : IsCall word text (front ++ argument ++ back))
    (hword : ∀ c ∈ word.toList, isBlank c = false) (hfront : Blanks front) (hback : Blanks back)
    (hargument : argument ≠ []) (hplain : ∀ c ∈ argument.map Char.toLower, isBlank c = false) :
    ∃ gap front' back', Blanks gap ∧ Blanks front' ∧ Blanks back' ∧
      compact text = word.toList ++
        (gap ++ '(' :: (front' ++ argument.map Char.toLower ++ back' ++ [')'])) := by
  rw [compact, lower_eq htext]
  cases h with
  | @intro head gap _ hhead hgap =>
      simp only [List.map_append, List.map_cons, List.map_nil, map_toLower_blanks hgap,
        map_toLower_blanks hfront, map_toLower_blanks hback]
      rw [hhead]
      exact exists_squeeze_call hword hgap hfront hback (by simpa using hargument) hplain

/-! ## Arguments -/

theorem argumentOf?_call (hgap : Blanks gap) (hfront : Blanks front) (hback : Blanks back)
    (hargument : Trimmed argument) :
    argumentOf? word (word.toList ++ (gap ++ '(' :: (front ++ argument ++ back ++ [')']))) =
      some (some argument) := by
  have hround : trimLeft (gap ++ '(' :: (front ++ argument ++ back ++ [')'])) =
      '(' :: (front ++ argument ++ back ++ [')']) := by
    rw [trimLeft_append hgap, trimLeft_cons (by decide)]
  simp only [argumentOf?, after?_append, Option.bind_eq_bind, Option.bind_some, hround,
    List.isEmpty_cons, Bool.false_eq_true, if_false,
    parenthesised?_eq_some_iff.mpr rfl, Option.pure_def, hargument.trim_eq hfront hback]

theorem numberArgument?_call (hgap : Blanks gap) (hfront : Blanks front) (hback : Blanks back)
    (hnumber : isNumber digits = true) :
    numberArgument? word (word.toList ++ (gap ++ '(' :: (front ++ digits ++ back ++ [')']))) =
      some digits := by
  rw [numberArgument?, argumentOf?_call hgap hfront hback (trimmed_of_isNumber hnumber)]
  simp [hnumber]

/-- The digits of an argument belong to a count, since all source texts are of ASCII. -/
theorem isCount_argument {limit : Option Nat} (htext : IsSourceText text)
    (hcall : IsCall word text (front ++ digits ++ back)) (hnumber : isNumber digits = true)
    (hshort : ∀ most ∈ limit, digits.length ≤ most) :
    IsCount limit digits (digitsValue digits : Nat) := by
  refine ⟨hnumber, ?_, hshort, rfl⟩
  intro c hc
  exact htext c (hcall.argument_mem (by simp [hc]))

/-- The compared form of a word with a number in parentheses. -/
theorem exists_compact_number (htext : IsSourceText text)
    (hcall : IsCall word text (front ++ digits ++ back)) (hfront : Blanks front)
    (hback : Blanks back) (hnumber : isNumber digits = true)
    (hword : ∀ c ∈ word.toList, isBlank c = false) :
    ∃ rest, compact text = word.toList ++ rest ∧
      numberArgument? word (word.toList ++ rest) = some digits := by
  have hsmall : digits.map Char.toLower = digits :=
    map_toLower_eq fun c hc => isNumber_alpha hnumber hc
  have hcount : IsCount none digits (digitsValue digits : Nat) :=
    isCount_argument htext hcall hnumber (by simp)
  obtain ⟨gap, front', back', hgap, hfront', hback', hcompact⟩ :=
    exists_compact_call htext hcall hword hfront hback (trimmed_of_isNumber hnumber).ne_nil
      (by rw [hsmall]; exact hcount.not_blank)
  rw [hsmall] at hcompact
  exact ⟨_, hcompact, numberArgument?_call hgap hfront' hback' hnumber⟩

/-! ## Atoms -/

theorem readCompact_receivedDiff
    (h : argumentOf? "received_diff" ("received_diff".toList ++ rest) = some (some ['x'])) :
    readCompact text ("received_diff".toList ++ rest) = .ok (.receivedDiff "x") := by
  have hother : readCompact text ("received_diff".toList ++ rest) =
      match (argumentOf? "received_diff" ("received_diff".toList ++ rest)).filter
        (·.all isWord) with
      | some found =>
          if found.all (· == ['x']) then .ok (.receivedDiff "x")
          else .error (.refused (.diffVariable "x" ((found.map String.ofList).getD "")))
      | none => .error (.refused (.unknownPredicate (String.ofList text))) := rfl
  rw [hother, h]
  rfl

/-- With a number in parentheses the count is read. -/
theorem readCompact_receivedAtLeast
    (h : numberArgument? "received_at_least" ("received_at_least".toList ++ rest) = some digits) :
    readCompact text ("received_at_least".toList ++ rest) = do
      let count ← (readNumber digits).mapError .unconvertible
      return .receivedAtLeast count := by
  have hother : readCompact text ("received_at_least".toList ++ rest) =
      match numberArgument? "received_at_least" ("received_at_least".toList ++ rest) with
      | some digits => do
          let count ← (readNumber digits).mapError .unconvertible
          return .receivedAtLeast count
      | none => .error (.refused .atLeastArgument) := rfl
  rw [hother, h]

theorem readCompact_receivedFrom {id : Int}
    (h : numberArgument? "received_from" ("received_from".toList ++ rest) = some digits)
    (hread : ({} : Vocabulary).readProcess "received_from" digits = .ok id) :
    readCompact text ("received_from".toList ++ rest) = .ok (.receivedFrom id) := by
  have hother : readCompact text ("received_from".toList ++ rest) =
      match numberArgument? "received_from" ("received_from".toList ++ rest) with
      | some digits =>
          (({} : Vocabulary).readProcess "received_from" digits).map Predicate.receivedFrom
      | none => .error (.refused .fromArgument) := rfl
  rw [hother, h]
  dsimp only
  rw [hread]
  rfl

/-- The three words of the form in which a leader is named. -/
theorem compact_leader {self between is leader : List Char} (hself : IsWordOf "self" self)
    (hbetween : Blanks between) (hbetweenNil : between ≠ []) (his : IsWordOf "is" is)
    (hgap : Blanks gap) (hgapNil : gap ≠ []) (hleader : IsWordOf "leader" leader)
    (htext : IsSourceText (self ++ (between ++ (is ++ (gap ++ leader))))) :
    compact (self ++ (between ++ (is ++ (gap ++ leader)))) = "self is leader".toList := by
  rw [compact, lower_eq htext]
  simp only [List.map_append, map_toLower_blanks hbetween, map_toLower_blanks hgap]
  rw [hself, his, hleader, squeeze_append (by decide)]
  have hsecond : squeeze (gap ++ "leader".toList) = " leader".toList :=
    squeeze_blanks hgap hgapNil (c := 'l') (by decide)
  have hfirst : squeeze (between ++ ("is".toList ++ (gap ++ "leader".toList))) =
      ' ' :: squeeze ("is".toList ++ (gap ++ "leader".toList)) :=
    squeeze_blanks hbetween hbetweenNil (c := 'i') (by decide)
  rw [hfirst, squeeze_append (by decide), hsecond]
  rfl

/-- Every atom is read as the predicate for which it stands. -/
theorem IsPredicateAtom.readAtom_eq (h : IsPredicateAtom (some digitLimit) text p)
    (htext : IsSourceText text) : readAtom {} text = .ok p := by
  rw [Source.readAtom_eq]
  cases h with
  | receivedAny habout =>
      rcases compact_of_isAbout htext habout (by decide) with hcompact | hcompact <;>
        rw [hcompact] <;> rfl
  | receivedAll habout =>
      rcases compact_of_isAbout htext habout (by decide) with hcompact | hcompact <;>
        rw [hcompact] <;> rfl
  | receivedMajority habout =>
      rcases compact_of_isAbout htext habout (by decide) with hcompact | hcompact <;>
        rw [hcompact] <;> rfl
  | isLeader hself hbetween hbetweenNil his hgap hgapNil hleader =>
      rw [compact_leader hself hbetween hbetweenNil his hgap hgapNil hleader htext]
      rfl
  | receivedDiff hword =>
      have hcompact : compact text = "received_diff".toList := by
        rw [compact, lower_eq htext, hword]
        exact squeeze_eq_self (by decide)
      rw [hcompact]
      rfl
  | @receivedDiffOf _ _ name _ hcall hfront hback hname =>
      have hnil : name ≠ [] := by
        have hfront : ∃ c rest, name = c :: rest ∧ c.toLower = 'x' := hname.exists_front rfl
        obtain ⟨c, rest, rfl, _⟩ := hfront
        exact List.cons_ne_nil c rest
      obtain ⟨gap, front', back', hgap, hfront', hback', hcompact⟩ :=
        exists_compact_call htext hcall (by decide) hfront hback hnil (by rw [hname]; decide)
      have hx : Trimmed "x".toList := ⟨⟨'x', [], rfl, by decide⟩, ⟨[], 'x', rfl, by decide⟩⟩
      rw [hcompact, hname]
      exact readCompact_receivedDiff (argumentOf?_call hgap hfront' hback' hx)
  | receivedAtLeast hcall hfront hback hnumber hshort =>
      obtain ⟨rest, hcompact, hargument⟩ :=
        exists_compact_number htext hcall hfront hback hnumber (by decide)
      rw [hcompact, readCompact_receivedAtLeast hargument,
        (isCount_argument htext hcall hnumber hshort).readNumber_eq]
      rfl
  | receivedFrom hcall hfront hback hid =>
      obtain ⟨rest, hcompact, hargument⟩ :=
        exists_compact_number htext hcall hfront hback hid.number (by decide)
      have hcount := isCount_argument htext hcall hid.number hid.short
      rw [hcompact]
      refine readCompact_receivedFrom hargument ((readProcess_eq_ok_iff hcount.source).mpr ?_)
      exact ⟨[], _, [], .nil, .nil, by simp, hid⟩

end LossyConsensus.Source
