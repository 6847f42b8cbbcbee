/-
# Written predicates are read back

The reader divides a predicate at the first word or sign outside brackets that
it knows, in an order of its own.  In a written predicate the parentheses leave
one of them outside, so the reader finds the one that was written.
-/

import LossyConsensus.Proofs.Source.PredicateReader

namespace LossyConsensus.Source

open LossyConsensus.Decimal LossyConsensus.Protocol LossyConsensus.Text

variable {limit : Option Nat} {processes : Nat} {names : List String} {v : Vocabulary}
  {p : Predicate Float} {source text word rest body following left right digits : List Char}
  {c : Char} {count : Int}

/-! ## Written predicates in place -/

theorem toLower_ne_space (h : isTokenChar c = true) : c.toLower ≠ ' ' := by
  intro hspace
  rw [eq_of_toLower_eq (by decide) hspace] at h
  cases h

/-- A written predicate begins with one of three characters. -/
theorem WritesPredicate.front (h : WritesPredicate limit p text) :
    ∃ c rest, text = c :: rest ∧ c ∈ ['r', 's', '('] := by
  cases h with
  | receivedAny => exact ⟨'r', _, rfl, by decide⟩
  | receivedAll => exact ⟨'r', _, rfl, by decide⟩
  | receivedMajority => exact ⟨'r', _, rfl, by decide⟩
  | isLeader => exact ⟨'s', _, rfl, by decide⟩
  | receivedDiff => exact ⟨'r', _, rfl, by decide⟩
  | receivedAtLeast _ => exact ⟨'r', _, rfl, by decide⟩
  | receivedFrom _ => exact ⟨'r', _, rfl, by decide⟩
  | compare _ _ => exact ⟨'(', _, rfl, by decide⟩
  | conj _ _ => exact ⟨'(', _, rfl, by decide⟩
  | disj _ _ => exact ⟨'(', _, rfl, by decide⟩
  | neg _ => exact ⟨'(', _, rfl, by decide⟩

theorem WritesPredicate.ne_nil (h : WritesPredicate limit p text) : text ≠ [] := by
  obtain ⟨c, rest, rfl, _⟩ := h.front
  exact List.cons_ne_nil c rest

/-- A word without brackets is balanced. -/
theorem balanced_word (h : ∀ c ∈ text, c ∉ marks) : Balanced text :=
  .of_plain fun c hc => plain_of_not_mem_marks (h c hc)

theorem balanced_sign_relation (op : Relation) : Balanced op.sign.toList :=
  balanced_word (by cases op <;> decide)

theorem balanced_compare {op : Relation} (hleft : Balanced left) (hright : Balanced right) :
    Balanced (left ++ ' ' :: (op.sign.toList ++ ' ' :: right)) := by
  have hspace : Balanced [' '] := .plain rfl rfl
  exact hleft.append (hspace.append ((balanced_sign_relation op).append (hspace.append hright)))

/-- The text that asks for the leader, the only predicate with blanks outside
parentheses. -/
def leaderText : List Char :=
  "self is leader".toList

theorem balanced_of_solid (h : text = leaderText ∨ Solid text) : Balanced text := by
  rcases h with rfl | h
  · exact balanced_word (by decide)
  · exact h.balanced

theorem solid_word (hmarks : ∀ c ∈ text, c ∉ marks) (htoken : ∀ c ∈ text, isTokenChar c = true) :
    Solid text :=
  .word (balanced_word hmarks) htoken

theorem solid_enclosed (hbody : Balanced body) : Solid (enclosed body) :=
  .call .nil (by simp) hbody

theorem solid_joined {word : List Char} (hleft : Balanced left) (hword : ∀ c ∈ word, c ∉ marks)
    (hright : Balanced right) : Solid (enclosed (left ++ word ++ right)) :=
  solid_enclosed ((hleft.append (balanced_word hword)).append hright)

/-- A written predicate has no blanks outside parentheses, unless it asks for the
leader. -/
theorem WritesPredicate.solid (h : WritesPredicate limit p text)
    (hsayable : Predicate.Sayable processes names p) : text = leaderText ∨ Solid text := by
  induction h with
  | receivedAny => exact .inr (solid_word (by decide) (by decide))
  | receivedAll => exact .inr (solid_word (by decide) (by decide))
  | receivedMajority => exact .inr (solid_word (by decide) (by decide))
  | isLeader => exact .inl rfl
  | receivedDiff => exact .inr (solid_word (by decide) (by decide))
  | receivedAtLeast hcount =>
      exact .inr (solid_called (by decide) (by decide) (Inert.of_number hcount.number).balanced)
  | receivedFrom hid =>
      exact .inr (solid_called (by decide) (by decide) (Inert.of_number hid.number).balanced)
  | compare hleft hright =>
      exact .inr (solid_enclosed (balanced_compare (hleft.placed hsayable.1).balanced
        (hright.placed hsayable.2).balanced))
  | conj _ _ ihleft ihright =>
      exact .inr (solid_joined (balanced_of_solid (ihleft hsayable.1)) (by decide)
        (balanced_of_solid (ihright hsayable.2)))
  | disj _ _ ihleft ihright =>
      exact .inr (solid_joined (balanced_of_solid (ihleft hsayable.1)) (by decide)
        (balanced_of_solid (ihright hsayable.2)))
  | neg _ ih =>
      exact .inr (solid_joined .nil (by decide) (balanced_of_solid (ih hsayable)))

theorem WritesPredicate.balanced (h : WritesPredicate limit p text)
    (hsayable : Predicate.Sayable processes names p) : Balanced text :=
  balanced_of_solid (h.solid hsayable)

theorem called_eq (word : String) (argument : List Char) :
    called word argument = (word.toList ++ '(' :: argument) ++ [')'] := by
  simp [called, enclosed]

theorem WritesPredicate.trimmed (h : WritesPredicate limit p text) : Trimmed text := by
  constructor
  · obtain ⟨c, rest, rfl, hc⟩ := h.front
    have hplain : ∀ c ∈ ['r', 's', '('], isBlank c = false := by decide
    exact ⟨c, rest, rfl, hplain c hc⟩
  · cases h with
    | receivedAny => exact ⟨"received_an".toList, 'y', rfl, by decide⟩
    | receivedAll => exact ⟨"received_al".toList, 'l', rfl, by decide⟩
    | receivedMajority => exact ⟨"received_majorit".toList, 'y', rfl, by decide⟩
    | isLeader => exact ⟨"self is leade".toList, 'r', rfl, by decide⟩
    | receivedDiff => exact ⟨"received_dif".toList, 'f', rfl, by decide⟩
    | receivedAtLeast _ => exact ⟨_, ')', called_eq _ _, by decide⟩
    | receivedFrom _ => exact ⟨_, ')', called_eq _ _, by decide⟩
    | compare _ _ => exact (trimmed_round _).back
    | conj _ _ => exact (trimmed_round _).back
    | disj _ _ => exact (trimmed_round _).back
    | neg _ => exact (trimmed_round _).back

theorem WritesPredicate.isWrittenText (h : WritesPredicate limit p text)
    (hsayable : Predicate.Sayable processes names p) : IsWrittenText text := by
  have hword : ∀ {word : String}, (∀ c ∈ word.toList, isWrittenChar c = true) →
      IsWrittenText word.toList := fun hall => hall
  have hcalled : ∀ {word : String} {digits : List Char} {n : Int},
      (∀ c ∈ word.toList, isWrittenChar c = true) → IsCount limit digits n →
      IsWrittenText (called word digits) :=
    fun hall hcount => IsWrittenText.append_iff.mpr ⟨hall, hcount.source.isWrittenText.enclosed⟩
  induction h with
  | receivedAny => exact hword (by decide)
  | receivedAll => exact hword (by decide)
  | receivedMajority => exact hword (by decide)
  | isLeader => exact hword (by decide)
  | receivedDiff => exact hword (by decide)
  | receivedAtLeast hcount => exact hcalled (by decide) hcount
  | receivedFrom hid => exact hcalled (by decide) hid
  | @compare op _ _ _ _ hleft hright =>
      have hsign : IsWrittenText op.sign.toList := hword (by cases op <;> decide)
      have hsecond := IsWrittenText.cons_iff.mpr
        ⟨(by decide : isWrittenChar ' ' = true), hright.isWrittenText hsayable.2⟩
      have hrest := IsWrittenText.cons_iff.mpr
        ⟨(by decide : isWrittenChar ' ' = true), IsWrittenText.append_iff.mpr ⟨hsign, hsecond⟩⟩
      exact (IsWrittenText.append_iff.mpr ⟨hleft.isWrittenText hsayable.1, hrest⟩).enclosed
  | conj _ _ ihleft ihright =>
      have hand : IsWrittenText " and ".toList := hword (by decide)
      have hfirst := IsWrittenText.append_iff.mpr ⟨ihleft hsayable.1, hand⟩
      exact (IsWrittenText.append_iff.mpr ⟨hfirst, ihright hsayable.2⟩).enclosed
  | disj _ _ ihleft ihright =>
      have hor : IsWrittenText " or ".toList := hword (by decide)
      have hfirst := IsWrittenText.append_iff.mpr ⟨ihleft hsayable.1, hor⟩
      exact (IsWrittenText.append_iff.mpr ⟨hfirst, ihright hsayable.2⟩).enclosed
  | neg _ ih =>
      have hnot : IsWrittenText "not ".toList := hword (by decide)
      exact (IsWrittenText.append_iff.mpr ⟨hnot, ih hsayable⟩).enclosed

/-! ## Connectives -/

/-- The words between two predicates, with the blanks around them. -/
def connectives : List (List Char) :=
  [" or ".toList, " and ".toList]

theorem exists_of_connective (h : word ∈ connectives) :
    ∃ letter rest, word = ' ' :: letter :: rest ∧ letter ∈ ['o', 'a'] ∧ ' ' ∈ rest ∧
      '(' ∉ letter :: rest := by
  simp only [connectives, List.mem_cons, List.not_mem_nil, or_false] at h
  rcases h with rfl | rfl
  · exact ⟨'o', "r ".toList, rfl, by decide, by decide, by decide⟩
  · exact ⟨'a', "nd ".toList, rfl, by decide, by decide, by decide⟩

section Connective

variable (hword : word ∈ connectives)
include hword

/-- The scan for a connective passes over what has no blanks. -/
theorem passes_connective (hbalanced : Balanced text) (h : ∀ c ∈ text, isTokenChar c = true) :
    Passes Char.toLower word text following := by
  obtain ⟨letter, rest, rfl, _⟩ := exists_of_connective hword
  exact .of_balanced hbalanced fun c hc => toLower_ne_space (h c hc)

theorem Solid.passes_connective (h : Solid text) : Passes Char.toLower word text following := by
  obtain ⟨letter, rest, rfl, _⟩ := exists_of_connective hword
  exact h.passes fun c hc => toLower_ne_space hc

/-- The scan for a connective passes over a blank before another letter. -/
theorem passes_space (hc : c.toLower ∉ ['o', 'a']) :
    Passes Char.toLower word [' '] (c :: following) := by
  obtain ⟨letter, rest, rfl, hletter, _⟩ := exists_of_connective hword
  apply Passes.char rfl rfl
  intro hbegins
  rw [List.map_cons, List.map_cons, List.cons_prefix_cons, List.cons_prefix_cons] at hbegins
  rw [← hbegins.2.1] at hc
  exact hc hletter

/-- The scan for a connective passes over a blank before a solid text at the
end. -/
theorem Solid.passes_space (h : Solid text) : Passes Char.toLower word [' '] text := by
  obtain ⟨letter, rest, rfl, _, hblank, hround⟩ := exists_of_connective hword
  apply Passes.char rfl rfl
  intro hbegins
  rw [List.map_cons, List.cons_prefix_cons] at hbegins
  exact h.not_begins (List.mem_cons_of_mem _ hblank) hround hbegins.2

/-- The scan for a connective passes over a written predicate. -/
theorem WritesPredicate.passes (h : WritesPredicate limit p text)
    (hsayable : Predicate.Sayable processes names p) :
    Passes Char.toLower word text following := by
  rcases h.solid hsayable with rfl | hsolid
  · simp only [connectives, List.mem_cons, List.not_mem_nil, or_false] at hword
    rcases hword with rfl | rfl
    · exact fun _ => rfl
    · exact fun _ => rfl
  · exact hsolid.passes_connective hword

end Connective

theorem cutOutsideAnyCase?_eq_none (htext : IsWrittenText text)
    (h : Passes Char.toLower word text []) : cutOutsideAnyCase? word text = none := by
  rw [cutOutsideAnyCase?, lower_written htext]
  exact h.eq_none

/-- A connective after a text that the scan passes over is found. -/
theorem cutOutsideAnyCase?_eq_some (hword : word ∈ connectives)
    (htext : IsWrittenText (left ++ word ++ right))
    (h : Passes Char.toLower word left (word ++ right)) :
    cutOutsideAnyCase? word (left ++ word ++ right) = some (left, right) := by
  rw [cutOutsideAnyCase?, lower_written htext]
  simp only [connectives, List.mem_cons, List.not_mem_nil, or_false] at hword
  rcases hword with rfl | rfl
  · rw [List.append_assoc]
    exact Passes.eq_some rfl rfl (by decide) h
  · rw [List.append_assoc]
    exact Passes.eq_some rfl rfl (by decide) h

/-! ## Reading connectives -/

section Reading

variable {l r : Predicate Float} (hleft : WritesPredicate limit l left)
  (hright : WritesPredicate limit r right) (hl : Predicate.Sayable processes names l)
  (hr : Predicate.Sayable processes names r)
include hleft hright hl hr

omit hright hr in
/-- No parentheses enclose what begins with a written predicate and goes on. -/
theorem isEnclosed_joined (hrest : rest ≠ []) : isEnclosed (left ++ rest) = false :=
  (hleft.balanced hl).isEnclosed_append hleft.ne_nil hrest

omit hl hr in
theorem trimmed_joined (word : List Char) : Trimmed (left ++ word ++ right) := by
  constructor
  · obtain ⟨c, rest, rfl, hc⟩ := hleft.trimmed.front
    exact ⟨c, _, by rw [List.append_assoc, List.cons_append], hc⟩
  · obtain ⟨init, c, rfl, hc⟩ := hright.trimmed.back
    exact ⟨left ++ word ++ init, c, by rw [List.append_assoc _ init], hc⟩

theorem isWrittenText_joined (hword : word ∈ connectives) :
    IsWrittenText (left ++ word ++ right) := by
  have hall : ∀ word ∈ connectives, ∀ c ∈ word, isWrittenChar c = true := by decide
  exact IsWrittenText.append_iff.mpr
    ⟨IsWrittenText.append_iff.mpr ⟨hleft.isWrittenText hl, hall word hword⟩,
      hright.isWrittenText hr⟩

theorem balanced_joined (hword : word ∈ connectives) : Balanced (left ++ word ++ right) := by
  have hall : ∀ word ∈ connectives, ∀ c ∈ word, c ∉ marks := by decide
  exact ((hleft.balanced hl).append (balanced_word (hall word hword))).append (hright.balanced hr)

theorem readPredicate_disj (hreadLeft : readPredicate v left = .ok l)
    (hreadRight : readPredicate v right = .ok r) :
    readPredicate v (enclosed (left ++ " or ".toList ++ right)) = .ok (.disj l r) := by
  have hword : " or ".toList ∈ connectives := by decide
  have hcut := cutOutsideAnyCase?_eq_some hword
    (isWrittenText_joined hleft hright hl hr hword) (hleft.passes hword hl)
  have henclosed : isEnclosed (left ++ " or ".toList ++ right) = false := by
    rw [List.append_assoc]
    exact isEnclosed_joined hleft hl (by simp)
  rw [readPredicate_enclosed (balanced_joined hleft hright hl hr hword),
    readPredicate_of_open (trimmed_joined hleft hright _) henclosed]
  exact readConnected_disj hcut hreadLeft hreadRight

theorem readPredicate_conj (hreadLeft : readPredicate v left = .ok l)
    (hreadRight : readPredicate v right = .ok r) :
    readPredicate v (enclosed (left ++ " and ".toList ++ right)) = .ok (.conj l r) := by
  have hor : " or ".toList ∈ connectives := by decide
  have hand : " and ".toList ∈ connectives := by decide
  have hwritten := isWrittenText_joined hleft hright hl hr hand
  have hnone : cutOutsideAnyCase? " or ".toList (left ++ " and ".toList ++ right) = none := by
    apply cutOutsideAnyCase?_eq_none hwritten
    obtain ⟨c, rest, rfl, hc⟩ := hright.front
    have hblank : Passes Char.toLower " or ".toList [' '] (c :: rest ++ []) := by
      have hother : ∀ c ∈ ['r', 's', '('], c.toLower ∉ ['o', 'a'] := by decide
      exact passes_space hor (hother c hc)
    have hgap : Passes Char.toLower " or ".toList " and".toList ([' '] ++ (c :: rest ++ [])) :=
      fun _ => rfl
    have hend : Passes Char.toLower " or ".toList (c :: rest) [] := hright.passes hor hr
    have hrest : Passes Char.toLower " or ".toList (" and".toList ++ ([' '] ++ c :: rest)) [] :=
      .append (by simpa using hgap) (hblank.append hend)
    have hall : Passes Char.toLower " or ".toList
        (left ++ (" and".toList ++ ([' '] ++ c :: rest))) [] :=
      .append (hleft.passes hor hl) hrest
    simpa using hall
  have hcut := cutOutsideAnyCase?_eq_some hand hwritten (hleft.passes hand hl)
  have henclosed : isEnclosed (left ++ " and ".toList ++ right) = false := by
    rw [List.append_assoc]
    exact isEnclosed_joined hleft hl (by simp)
  rw [readPredicate_enclosed (balanced_joined hleft hright hl hr hand),
    readPredicate_of_open (trimmed_joined hleft hright _) henclosed]
  exact readConnected_conj hnone hcut hreadLeft hreadRight

end Reading

/-! ## Reading negations -/

section Negation

variable (hp : WritesPredicate limit p text) (hsayable : Predicate.Sayable processes names p)
include hp hsayable

theorem passes_negation (hword : word ∈ connectives) :
    Passes Char.toLower word ("not ".toList ++ text) [] := by
  obtain ⟨c, rest, rfl, hc⟩ := hp.front
  have hother : ∀ c ∈ ['r', 's', '('], c.toLower ∉ ['o', 'a'] := by decide
  have hblank : Passes Char.toLower word [' '] (c :: rest ++ []) := passes_space hword (hother c hc)
  have hnot : Passes Char.toLower word "not".toList ([' '] ++ c :: rest ++ []) :=
    passes_connective hword (balanced_word (by decide)) (by decide)
  have hrest : Passes Char.toLower word ([' '] ++ c :: rest) [] :=
    hblank.append (hp.passes hword hsayable)
  have hall : Passes Char.toLower word ("not".toList ++ ([' '] ++ c :: rest)) [] :=
    hnot.append hrest
  exact hall

theorem readPredicate_neg (hread : readPredicate v text = .ok p) :
    readPredicate v (enclosed ("not ".toList ++ text)) = .ok (.neg p) := by
  have hwritten : IsWrittenText ("not ".toList ++ text) := by
    have hall : ∀ c ∈ "not ".toList, isWrittenChar c = true := by decide
    exact IsWrittenText.append_iff.mpr ⟨hall, hp.isWrittenText hsayable⟩
  have hbalanced : Balanced ("not ".toList ++ text) :=
    (balanced_word (by decide)).append (hp.balanced hsayable)
  have htrim : Trimmed ("not ".toList ++ text) := by
    obtain ⟨init, c, hparts, hc⟩ := hp.trimmed.back
    exact ⟨⟨'n', _, rfl, by decide⟩,
      ⟨"not ".toList ++ init, c, by rw [hparts, List.append_assoc], hc⟩⟩
  have hnone : ∀ word ∈ connectives, cutOutsideAnyCase? word ("not ".toList ++ text) = none :=
    fun _ hword => cutOutsideAnyCase?_eq_none hwritten (passes_negation hp hsayable hword)
  have hnegated : negated? ("not ".toList ++ text) = some (' ' :: text) := by
    have hstarts : startsWith "not ".toList (lower ("not ".toList ++ text)) = true := by
      rw [lower_written hwritten]
      rfl
    rw [negated?, hstarts, Bool.true_or, if_pos rfl]
    rfl
  have hoperand : readPredicate v (' ' :: text) = .ok p := by
    rw [← readPredicate_trim, trim_after_space hp.trimmed, hread]
  rw [readPredicate_enclosed hbalanced, readPredicate_of_open htrim rfl,
    readConnected_unjoined (hnone " or ".toList (by decide)) (hnone " and ".toList (by decide))]
  exact readUnjoined_neg hnegated hoperand

end Negation

/-! ## Reading comparisons -/

/-- Where a text is taken for a negation it begins with the keyword. -/
theorem beginsKeyword_of_not {stop : Char} (hstop : stop ∈ [' ', '('])
    (h : "not".toList ++ [stop] <+: text.map Char.toLower) : BeginsKeyword text := by
  obtain ⟨begin, rest, rfl, hbegin⟩ := exists_of_prefix_map h
  obtain ⟨word, last, rfl, hword, hlast⟩ := List.map_eq_append_iff.mp hbegin
  obtain ⟨d, none, rfl, hd, hnone⟩ := List.map_eq_cons_iff.mp hlast
  obtain rfl := List.map_eq_nil_iff.mp hnone
  have hplain : ∀ stop ∈ [' ', '('], stop.isAlpha = false ∧ isWordChar stop = false := by decide
  obtain rfl := eq_of_toLower_eq (hplain stop hstop).1 hd
  refine ⟨word, d :: rest, by simp, by rw [hword]; decide, ?_⟩
  simp [atWordEnd, (hplain d hstop).2]

/-- The scan for a sign passes over a solid text. -/
theorem Solid.passes_sign (h : Solid text) (op : Relation) :
    Passes id op.sign.toList text following := by
  obtain ⟨first, rest, hsign, hfirst⟩ := exists_of_sign op
  rw [hsign]
  refine h.passes fun c hc hsame => ?_
  have hnone : ∀ c ∈ "<>=!".toList, isTokenChar c = false := by decide
  obtain rfl : c = first := hsame
  rw [hnone c hfirst] at hc
  cases hc

section Comparison

variable {l r : Expr Float} {op : Relation} (hleft : WritesExpr limit l left)
  (hright : WritesExpr limit r right) (hl : Expr.Sayable processes names l)
  (hr : Expr.Sayable processes names r)
include hleft hright hl hr

/-- The text of a comparison. -/
def compared (left : List Char) (op : Relation) (right : List Char) : List Char :=
  left ++ ' ' :: (op.sign.toList ++ ' ' :: right)

theorem isWrittenText_compared : IsWrittenText (compared left op right) := by
  have hsign : ∀ c ∈ [' '] ++ op.sign.toList ++ [' '], isWrittenChar c = true := by
    cases op <;> decide
  have hparts : compared left op right = left ++ ([' '] ++ op.sign.toList ++ [' ']) ++ right := by
    simp [compared]
  rw [hparts]
  exact IsWrittenText.append_iff.mpr
    ⟨IsWrittenText.append_iff.mpr ⟨hleft.isWrittenText hl, hsign⟩, hright.isWrittenText hr⟩

theorem trimmed_compared : Trimmed (compared left op right) := by
  constructor
  · obtain ⟨c, rest, rfl, hc⟩ := (hleft.placed hl).front
    exact ⟨c, _, rfl, hc⟩
  · obtain ⟨init, c, rfl, hc⟩ := (hright.placed hr).trimmed.back
    exact ⟨left ++ ' ' :: (op.sign.toList ++ ' ' :: init), c, by simp [compared], hc⟩

/-- No connective stands in a comparison. -/
theorem passes_compared (hword : word ∈ connectives) :
    Passes Char.toLower word (compared left op right) [] := by
  have hfirst : Passes Char.toLower word left
      (' ' :: (op.sign.toList ++ ' ' :: right) ++ []) :=
    (hleft.solid hl).passes_connective hword
  have hsign : Passes Char.toLower word (' ' :: op.sign.toList) (' ' :: right ++ []) := by
    simp only [connectives, List.mem_cons, List.not_mem_nil, or_false] at hword
    rcases hword with rfl | rfl
    · cases op <;> exact fun _ => rfl
    · cases op <;> exact fun _ => rfl
  have hblank : Passes Char.toLower word [' '] (right ++ []) := by
    rw [List.append_nil]
    exact (hright.solid hr).passes_space hword
  have hlast : Passes Char.toLower word (' ' :: right) [] :=
    hblank.append ((hright.solid hr).passes_connective hword)
  exact hfirst.append (hsign.append hlast)

theorem negated?_compared : negated? (compared left op right) = none := by
  have hkeyword : ¬ BeginsKeyword (compared left op right) := hleft.not_beginsKeyword hl rfl
  refine negated?_eq_none_of_starts fun stop hstop hstarts => ?_
  rw [startsWith_iff, lower_written (isWrittenText_compared hleft hright hl hr)] at hstarts
  exact hkeyword (beginsKeyword_of_not hstop hstarts)

/-- A sign is not found where another stands. -/
theorem cutOutside?_eq_none {sign : Relation}
    (hsign : ¬ sign.sign.toList <:+: op.sign.toList) :
    cutOutside? sign.sign.toList (compared left op right) = none := by
  have hgap : Passes id sign.sign.toList (' ' :: (op.sign.toList ++ [' '])) (right ++ []) := by
    cases sign <;> cases op <;> first | exact absurd (by decide) hsign | exact fun _ => rfl
  have hrest : Passes id sign.sign.toList (' ' :: (op.sign.toList ++ [' ']) ++ right) [] :=
    hgap.append ((hright.solid hr).passes_sign sign)
  have hall : Passes id sign.sign.toList (left ++ (' ' :: (op.sign.toList ++ [' ']) ++ right)) [] :=
    .append ((hleft.solid hl).passes_sign sign) hrest
  have hparts : left ++ (' ' :: (op.sign.toList ++ [' ']) ++ right) = compared left op right := by
    simp [compared]
  have hnone := hall.eq_none
  rwa [List.map_id, hparts] at hnone

omit hright hr in
/-- A sign is found where it stands. -/
theorem cutOutside?_eq_some :
    cutOutside? op.sign.toList (compared left op right) = some (left ++ [' '], ' ' :: right) := by
  obtain ⟨first, rest, hsign, hfirst⟩ := exists_of_sign op
  have hplain : ∀ c ∈ "<>=!".toList, isOpening c = false ∧ isClosing c = false ∧ c ≠ ' ' := by
    decide
  obtain ⟨hopening, hclosing, hother⟩ := hplain first hfirst
  have hblank : Passes id (first :: rest) [' '] (first :: (rest ++ ' ' :: right)) := by
    refine .of_balanced (.plain rfl rfl) fun c hc => ?_
    rw [List.mem_singleton.mp hc]
    exact Ne.symm hother
  have hbefore : Passes id (first :: rest) (left ++ [' ']) (first :: (rest ++ ' ' :: right)) := by
    have hleftPasses : Passes id op.sign.toList left ([' '] ++ first :: (rest ++ ' ' :: right)) :=
      (hleft.solid hl).passes_sign op
    rw [hsign] at hleftPasses
    exact hleftPasses.append hblank
  have hcut := hbefore.eq_some hopening hclosing (List.map_id _)
  have hparts : left ++ [' '] ++ first :: (rest ++ ' ' :: right) = compared left op right := by
    simp [compared, hsign]
  rwa [List.map_id, hparts, ← hsign] at hcut

theorem comparison?_compared :
    comparison? (compared left op right) = some (left ++ [' '], op, ' ' :: right) :=
  comparison?_eq_some_of_cut (cutOutside?_eq_some hleft hl) fun _ hsign =>
    cutOutside?_eq_none hleft hright hl hr hsign

theorem readPredicate_compare (hreadLeft : readExpr v left = .ok l)
    (hreadRight : readExpr v right = .ok r) :
    readPredicate v (enclosed (compared left op right)) = .ok (.compare op l r) := by
  have hnone : ∀ word ∈ connectives, cutOutsideAnyCase? word (compared left op right) = none :=
    fun _ hword => cutOutsideAnyCase?_eq_none (isWrittenText_compared hleft hright hl hr)
      (passes_compared hleft hright hl hr hword)
  have hbalanced : Balanced (compared left op right) :=
    balanced_compare (hleft.placed hl).balanced (hright.placed hr).balanced
  have henclosed : isEnclosed (compared left op right) = false :=
    (hleft.placed hl).balanced.isEnclosed_append (hleft.placed hl).ne_nil (by simp)
  have hfirst : readExpr v (left ++ [' ']) = .ok l := by
    have htrim := (hleft.placed hl).trimmed.trim_eq .nil blanks_space
    rw [List.nil_append] at htrim
    rw [← readExpr_trim, htrim, hreadLeft]
  have hsecond := (readExpr_after_space (hright.placed hr).trimmed).trans hreadRight
  rw [readPredicate_enclosed hbalanced,
    readPredicate_of_open (trimmed_compared hleft hright hl hr) henclosed,
    readConnected_unjoined (hnone " or ".toList (by decide)) (hnone " and ".toList (by decide))]
  exact readUnjoined_compare (negated?_compared hleft hright hl hr)
    (comparison?_compared hleft hright hl hr) hfirst hsecond

end Comparison

/-! ## Reading atoms -/

/-- A text that begins with `r` or `s`, and holds neither a sign nor a
connective, is left to the reader of atoms. -/
theorem readPredicate_atom (h : WritesPredicate limit p text)
    (hsayable : Predicate.Sayable processes names p) (hfront : ∀ c ∈ text.head?, c ∈ ['r', 's'])
    (hsigns : ∀ c ∈ text, c ∉ "<>=!".toList) : readPredicate v text = readAtom v text := by
  obtain ⟨c, rest, rfl, _⟩ := h.front
  have hc : c ∈ ['r', 's'] := hfront c rfl
  have hwritten := h.isWrittenText hsayable
  have hnone : ∀ word ∈ connectives, cutOutsideAnyCase? word (c :: rest) = none :=
    fun _ hword => cutOutsideAnyCase?_eq_none hwritten (h.passes hword hsayable)
  have hopen : isEnclosed (c :: rest) = false := by
    have hround : ∀ c ∈ ['r', 's'], c ≠ '(' := by decide
    simp [isEnclosed, hround c hc]
  have hnegated : negated? (c :: rest) = none := by
    have hother : ∀ c ∈ ['r', 's'], ¬ c.toLower = 'n' := by decide
    refine negated?_eq_none_of_starts fun stop _ hstarts => ?_
    rw [lower_written hwritten, startsWith_iff] at hstarts
    exact hother c hc (List.cons_prefix_cons.mp hstarts).1.symm
  rw [readPredicate_of_open h.trimmed hopen,
    readConnected_unjoined (hnone " or ".toList (by decide)) (hnone " and ".toList (by decide))]
  exact readUnjoined_atom hnegated (comparison?_eq_none (h.balanced hsayable) hsigns)

theorem squeeze_eq_self (h : ∀ c ∈ text, isBlank c = false) : squeeze text = text := by
  induction text with
  | nil => rfl
  | cons c text ih =>
      rw [List.forall_mem_cons] at h
      cases text with
      | nil => rw [squeeze, h.1, if_neg Bool.false_ne_true]
      | cons d text => rw [squeeze, h.1, if_neg Bool.false_ne_true, ih h.2]

theorem IsCount.readNumber_eq (h : IsCount (some digitLimit) digits count) :
    readNumber digits = .ok (digitsValue digits) := by
  have hread : readInteger digits = .ok (digitsValue digits) := by
    rw [readInteger_eq_ok_iff, trimNumeral_eq (trimmed_of_isNumber h.number)]
    exact ⟨h.short digitLimit rfl, h.number, rfl⟩
  rw [readNumber, hread]
  rfl

/-- A count after a word in small letters is compared as it is written. -/
theorem squeeze_lower_called {word : String} (h : IsCount limit digits count)
    (hword : ∀ c ∈ word.toList, isSourceChar c = true ∧ isBlank c = false)
    (hsmall : word.toList.map Char.toLower = word.toList) :
    squeeze (lower (called word digits)) = called word digits := by
  have hsource : IsSourceText (called word digits) :=
    isSourceText_called (fun c hc => (hword c hc).1) h.source
  have hlower : (called word digits).map Char.toLower = called word digits := by
    have hdigits := map_toLower_eq fun c hc => isNumber_alpha h.number hc
    rw [called, enclosed, List.map_append, hsmall, List.map_cons, List.map_append, hdigits]
    rfl
  rw [lower_eq hsource, hlower]
  apply squeeze_eq_self
  intro c hc
  simp only [called, enclosed, List.mem_append, List.mem_cons, List.not_mem_nil, or_false] at hc
  rcases hc with hc | rfl | hc | rfl
  · exact (hword c hc).2
  · decide
  · exact h.not_blank c hc
  · decide

theorem numberArgument?_called {word : String} (h : isNumber digits = true) :
    numberArgument? word (called word digits) = some digits := by
  have hround : trimLeft (enclosed digits) = enclosed digits := trimLeft_cons (by decide)
  have hargument : parenthesised? (enclosed digits) = some digits :=
    parenthesised?_eq_some_iff.mpr rfl
  have hempty : (enclosed digits).isEmpty = false := rfl
  simp only [numberArgument?, argumentOf?, called, after?_append, Option.bind_eq_bind,
    Option.bind_some, hround, hempty, Bool.false_eq_true, if_false, hargument, Option.pure_def,
    (trimmed_of_isNumber h).trim_self, Option.join_some, Option.filter_some, h, if_true]

/-- A call is none of the words that its own word does not begin. -/
theorem ofList_called_beq {word other : String} (h : ¬ word.toList <+: other.toList) :
    (String.ofList (called word digits) == other) = false := by
  rw [beq_eq_false_iff_ne]
  rintro rfl
  rw [String.toList_ofList] at h
  exact h (List.prefix_append _ _)

/-- How the reader of atoms goes on with a call whose word begins none of the
words without a count. -/
theorem readAtom_called {word : String} (h : IsCount limit digits count)
    (hword : ∀ c ∈ word.toList, isSourceChar c = true ∧ isBlank c = false)
    (hsmall : word.toList.map Char.toLower = word.toList)
    (hother : ∀ other ∈ ["received_any", "received_any" ++ "(" ++ "x" ++ ")", "received_all",
      "received_all" ++ "(" ++ "x" ++ ")", "received_majority",
      "received_majority" ++ "(" ++ "x" ++ ")", "self is leader"],
      ¬ word.toList <+: other.toList)
    (hdiff : argumentOf? "received_diff" (called word digits) = none) :
    readAtom (rulesVocabulary processes names) (called word digits) =
      if startsWith "received_at_least".toList (called word digits) then
        (numberArgument? "received_at_least" (called word digits)).elim
          (.error (.refused .atLeastArgument)) fun digits => do
            let count ← (readNumber digits).mapError .unconvertible
            return .receivedAtLeast count
      else if startsWith "received_from".toList (called word digits) then
        (numberArgument? "received_from" (called word digits)).elim
          (.error (.refused .fromArgument)) fun digits =>
            ((rulesVocabulary processes names).readProcess "received_from" digits).map
              Predicate.receivedFrom
      else .error (.refused (.unknownPredicate (String.ofList (called word digits)))) := by
  have hname : String.ofList (lower "x".toList) = "x" := by decide +kernel
  have hleader : (called word digits == "self is leader".toList) = false := by
    rw [beq_eq_false_iff_ne]
    intro hsame
    exact hother "self is leader" (by decide) (hsame ▸ List.prefix_append _ _)
  have hnone : ∀ other ∈ _, (String.ofList (called word digits) == other) = false :=
    fun other hmem => ofList_called_beq (hother other hmem)
  simp only [readAtom, squeeze_lower_called h hword hsmall, rulesVocabulary_stateVar, hname,
    hnone "received_any" (by simp), hnone ("received_any" ++ "(" ++ "x" ++ ")") (by simp),
    hnone "received_all" (by simp), hnone ("received_all" ++ "(" ++ "x" ++ ")") (by simp),
    hnone "received_majority" (by simp), hnone ("received_majority" ++ "(" ++ "x" ++ ")") (by simp),
    hleader, hdiff, Bool.or_self, Bool.false_eq_true, if_false, Option.filter_none]
  congr 1
  · cases numberArgument? "received_at_least" (called word digits) <;> rfl
  · congr 1
    cases numberArgument? "received_from" (called word digits) <;> rfl

theorem readAtom_receivedAtLeast (h : IsCount (some digitLimit) digits count) :
    readAtom (rulesVocabulary processes names) (called "received_at_least" digits) =
      .ok (.receivedAtLeast count) := by
  have hstarts : startsWith "received_at_least".toList (called "received_at_least" digits) = true :=
    rfl
  rw [readAtom_called h (by decide) (by decide) (by decide +kernel) rfl, if_pos hstarts,
    numberArgument?_called h.number, Option.elim_some, h.readNumber_eq, h.value]
  rfl

theorem readAtom_receivedFrom (h : IsCount (some digitLimit) digits count) (hpositive : 1 ≤ count)
    (hprocesses : count ≤ processes) :
    readAtom (rulesVocabulary processes names) (called "received_from" digits) =
      .ok (.receivedFrom count) := by
  have hread : ({} : Vocabulary).readProcess "received_from" digits = .ok count :=
    (readProcess_eq_ok_iff h.source).mpr
      ⟨[], digits, [], .nil, .nil, by simp, h.isId hpositive⟩
  have hother : ¬ startsWith "received_at_least".toList (called "received_from" digits) = true :=
    Bool.false_ne_true
  have hstarts : startsWith "received_from".toList (called "received_from" digits) = true := rfl
  rw [readAtom_called h (by decide) (by decide) (by decide +kernel) rfl, if_neg hother,
    if_pos hstarts, numberArgument?_called h.number, Option.elim_some,
    readProcess_known hread hprocesses]
  rfl

theorem signs_called {word : String} (h : IsCount limit digits count)
    (hword : ∀ c ∈ word.toList, c ∉ "<>=!".toList) :
    ∀ c ∈ called word digits, c ∉ "<>=!".toList := by
  intro c hc
  simp only [called, enclosed, List.mem_append, List.mem_cons, List.not_mem_nil, or_false] at hc
  rcases hc with hc | rfl | hc | rfl
  · exact hword c hc
  · decide
  · have hnone : ∀ c ∈ "<>=!".toList, isTokenChar c = false := by decide
    intro hsign
    have htoken := isTokenChar_of_isDigit ((digits_iff.mp h.number).2 c hc)
    rw [hnone c hsign] at htoken
    cases htoken
  · decide

/-- A written predicate that can be said is read as the predicate. -/
theorem WritesPredicate.readPredicate (h : WritesPredicate (some digitLimit) p text)
    (hsayable : Predicate.Sayable processes names p) :
    readPredicate (rulesVocabulary processes names) text = .ok p := by
  have hatom : ∀ {p : Predicate Float} {word : String},
      WritesPredicate (some digitLimit) p word.toList → Predicate.Sayable processes names p →
      (∃ c ∈ ['r', 's'], word.toList.head? = some c) → (∀ c ∈ word.toList, c ∉ "<>=!".toList) →
      Source.readPredicate (rulesVocabulary processes names) word.toList =
        readAtom (rulesVocabulary processes names) word.toList := by
    rintro p word h hsayable ⟨c, hc, hfront⟩ hsigns
    refine readPredicate_atom h hsayable ?_ hsigns
    intro other hother
    obtain rfl : c = other := Option.some.inj (hfront.symm.trans hother)
    exact hc
  induction h with
  | receivedAny => exact hatom .receivedAny hsayable ⟨'r', by decide, rfl⟩ (by decide)
  | receivedAll => exact hatom .receivedAll hsayable ⟨'r', by decide, rfl⟩ (by decide)
  | receivedMajority => exact hatom .receivedMajority hsayable ⟨'r', by decide, rfl⟩ (by decide)
  | isLeader => exact hatom .isLeader hsayable ⟨'s', by decide, rfl⟩ (by decide)
  | receivedDiff => exact hatom .receivedDiff hsayable ⟨'r', by decide, rfl⟩ (by decide)
  | receivedAtLeast hcount =>
      have h := WritesPredicate.receivedAtLeast hcount
      rw [readPredicate_atom h hsayable (by simp [called]) (signs_called hcount (by decide)),
        readAtom_receivedAtLeast hcount]
  | receivedFrom hid =>
      have h := WritesPredicate.receivedFrom hid
      rw [readPredicate_atom h hsayable (by simp [called]) (signs_called hid (by decide)),
        readAtom_receivedFrom hid hsayable.2.1 hsayable.2.2]
  | compare hleft hright =>
      exact readPredicate_compare hleft hright hsayable.1 hsayable.2 (hleft.readExpr hsayable.1)
        (hright.readExpr hsayable.2)
  | conj hleft hright ihleft ihright =>
      exact readPredicate_conj hleft hright hsayable.1 hsayable.2 (ihleft hsayable.1)
        (ihright hsayable.2)
  | disj hleft hright ihleft ihright =>
      exact readPredicate_disj hleft hright hsayable.1 hsayable.2 (ihleft hsayable.1)
        (ihright hsayable.2)
  | neg hoperand ih => exact readPredicate_neg hoperand hsayable (ih hsayable)

end LossyConsensus.Source
