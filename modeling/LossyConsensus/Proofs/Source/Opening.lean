/-
# The line that opens a conditional

The condition of a conditional ends at the first `then` that has a condition
before it; what follows that `then` plays no part.  So the part of a conditional
through its `then` is a line that opens a block with the same condition.
-/

import LossyConsensus.Proofs.Source.Conversion

namespace LossyConsensus.Source

open LossyConsensus.Protocol LossyConsensus.Text

variable {text rest front tail body condition more : List Char} {c : Char}

/-- What the line of a conditional holds before its body. -/
def openingLine (text body : List Char) : List Char :=
  trimRight (text.take (text.length - body.length))

/-- A text continues with blanks and a `then`, after which its body stands. -/
inductive BeginsThen : List Char → List Char → Prop
  | intro {gap word rest : List Char} (hsome : gap ≠ []) (hgap : Blanks gap)
      (hword : List.Forall₂ (fun small c => isCaseOf small c = true) "then".toList word)
      (hend : atWordEnd rest = true) (hline : isOneLine (trimLeft rest) = true) :
      BeginsThen (gap ++ word ++ rest) (trimLeft rest)

theorem afterAnyCase?_append {word written : List Char}
    (h : List.Forall₂ (fun small c => isCaseOf small c = true) word written) (rest : List Char) :
    afterAnyCase? word (written ++ rest) = some rest := by
  induction h with
  | nil => rfl
  | cons hc _ ih => rwa [List.cons_append, afterAnyCase?, if_pos hc]

theorem not_blank_of_isCaseOf_t (h : isCaseOf 't' c = true) : isBlank c = false :=
  isBlank_eq_false (fun c => !isCaseOf 't' c) (by decide) (by simpa using h)

theorem afterThen?_eq_some_iff : afterThen? text = some body ↔ BeginsThen text body := by
  constructor
  · intro h
    obtain ⟨start, hstart, h⟩ := Option.bind_eq_some_iff.mp h
    obtain ⟨rest, hrest, h⟩ := Option.bind_eq_some_iff.mp h
    dsimp only at h
    split at h
    · next hform =>
      cases h
      rw [Bool.and_eq_true] at hform
      obtain ⟨word, rfl, hword⟩ := parts_of_afterAnyCase? hrest
      cases text with
      | nil => cases hstart
      | cons c text =>
          rw [blanks?] at hstart
          split at hstart
          · next hc =>
            obtain ⟨gap, hgap, hparts⟩ := exists_trimLeft text
            rw [Option.some.inj hstart] at hparts
            rw [hparts, ← List.cons_append, ← List.append_assoc]
            exact .intro (List.cons_ne_nil c gap) (List.forall_mem_cons.mpr ⟨hc, hgap⟩) hword
              hform.1 hform.2
          · cases hstart
    · cases h
  · rintro ⟨hsome, hgap, hword, hend, hline⟩
    rename_i gap word rest
    obtain ⟨c, gap, rfl⟩ := List.exists_cons_of_ne_nil hsome
    have hstart : trimLeft (gap ++ (word ++ rest)) = word ++ rest := by
      rw [trimLeft_append hgap.tail]
      cases hword with
      | cons hc _ => exact trimLeft_cons (not_blank_of_isCaseOf_t hc)
    have hblanks : blanks? (c :: gap ++ word ++ rest) = some (word ++ rest) := by
      rw [List.append_assoc, List.cons_append, blanks?, if_pos hgap.head, hstart]
    simp only [afterThen?, hblanks, Option.bind_eq_bind, Option.bind_some,
      afterAnyCase?_append hword, hend, hline, Bool.and_self, if_true]

theorem isOneLine_iff : isOneLine text = true ↔ '\n' ∉ text := by
  rw [isOneLine, Bool.not_eq_true', Bool.eq_false_iff, Ne, List.contains_iff_mem]

theorem isOneLine_trimLeft (h : '\n' ∉ text) : isOneLine (trimLeft text) = true :=
  isOneLine_iff.mpr fun hmem => h ((trimLeft_isSuffix text).mem hmem)

/-- A `then` stays one when the text goes on with another word. -/
theorem BeginsThen.append (h : BeginsThen text body) (hline : '\n' ∉ text ++ more)
    (hmore : atWordEnd more = true) : ∃ other, BeginsThen (text ++ more) other := by
  cases h with
  | @intro gap word rest hsome hgap hword hend _ =>
      rw [List.append_assoc] at hline ⊢
      have hone : '\n' ∉ rest ++ more := fun hmem => hline (List.mem_append_right _ hmem)
      have hendMore : atWordEnd (rest ++ more) = true := by
        cases rest with
        | nil => exact hmore
        | cons c rest => exact hend
      exact ⟨_, .intro hsome hgap hword hendMore (isOneLine_trimLeft hone)⟩

/-- The part of a text through its `then`: nothing follows there. -/
theorem BeginsThen.exists_through (h : BeginsThen text body) :
    ∃ init c tail, text = init ++ [c] ++ tail ∧ isBlank c = false ∧ body = trimLeft tail ∧
      atWordEnd tail = true ∧ BeginsThen (init ++ [c]) [] := by
  cases h with
  | @intro gap word rest hsome hgap hword hend _ =>
      have hblank : ∀ {c : Char}, isCaseOf 'n' c = true → isBlank c = false := fun hc =>
        isBlank_eq_false (fun c => !isCaseOf 'n' c) (by decide) (by simpa using hc)
      have hlast : ∃ init c, word = init ++ [c] ∧ isBlank c = false := by
        cases hword with
        | @cons _ t _ _ _ hword => cases hword with
          | @cons _ h _ _ _ hword => cases hword with
            | @cons _ e _ _ _ hword => cases hword with
              | @cons _ n _ _ hn hword =>
                cases hword
                exact ⟨[t, h, e], n, rfl, hblank hn⟩
      have hthrough : BeginsThen (gap ++ word ++ []) [] := .intro hsome hgap hword rfl rfl
      obtain ⟨init, c, rfl, hc⟩ := hlast
      refine ⟨gap ++ init, c, rest, by simp, hc, rfl, hend, ?_⟩
      simpa using hthrough

/-- A condition that ends within a text ends within a longer one. -/
theorem conditionFrom_append {seen : List Char} {found : List Char × List Char}
    (h : conditionFrom seen text = some found) (hline : '\n' ∉ text ++ more)
    (hmore : atWordEnd more = true) : ∃ other, conditionFrom seen (text ++ more) = some other := by
  induction text generalizing seen with
  | nil => cases h
  | cons c text ih =>
      obtain ⟨condition, body⟩ := found
      rcases conditionFrom_cons_eq_some_iff.mp h with ⟨hseen, hthen, rfl⟩ | ⟨_, hc, hrest⟩
      · obtain ⟨other, hother⟩ := (afterThen?_eq_some_iff.mp hthen).append hline hmore
        exact ⟨_, conditionFrom_cons_eq_some_iff.mpr
          (.inl ⟨hseen, afterThen?_eq_some_iff.mpr hother, rfl⟩)⟩
      · rw [List.cons_append, List.mem_cons, not_or] at hline
        obtain ⟨⟨_, _⟩, hother⟩ := ih hrest hline.2
        -- In the longer text the search may stop earlier.
        by_cases hfirst : seen = [] ∨ afterThen? (c :: (text ++ more)) = none
        · exact ⟨_, conditionFrom_cons_eq_some_iff.mpr (.inr ⟨hfirst, hc, hother⟩)⟩
        · obtain ⟨hseen, hthen⟩ := not_or.mp hfirst
          obtain ⟨body, hbody⟩ := Option.ne_none_iff_exists'.mp hthen
          exact ⟨_, conditionFrom_cons_eq_some_iff.mpr (.inl ⟨hseen, hbody, rfl⟩)⟩

/-- The part of a text through the `then` that ends its condition has the same
condition and no body. -/
theorem exists_of_conditionFrom {seen : List Char} (hline : '\n' ∉ text)
    (h : conditionFrom seen text = some (condition, body)) :
    ∃ init c tail, text = init ++ [c] ++ tail ∧ isBlank c = false ∧ body = trimLeft tail ∧
      atWordEnd tail = true ∧ conditionFrom seen (init ++ [c]) = some (condition, []) := by
  induction text generalizing seen with
  | nil => cases h
  | cons d text ih =>
      rcases conditionFrom_cons_eq_some_iff.mp h with ⟨hseen, hthen, rfl⟩ | ⟨hnone, hd, hrest⟩
      · obtain ⟨init, c, tail, hparts, hc, hbody, hend, hthrough⟩ :=
          (afterThen?_eq_some_iff.mp hthen).exists_through
        refine ⟨init, c, tail, hparts, hc, hbody, hend, ?_⟩
        obtain ⟨first, through, hcons⟩ :=
          List.exists_cons_of_ne_nil (List.append_ne_nil_of_right_ne_nil init
            (List.cons_ne_nil c []))
        rw [hcons, conditionFrom_cons_eq_some_iff, ← hcons]
        exact .inl ⟨hseen, afterThen?_eq_some_iff.mpr hthrough, rfl⟩
      · obtain ⟨init, c, tail, rfl, hc, hbody, hend, hread⟩ :=
          ih (fun hmem => hline (List.mem_cons_of_mem d hmem)) hrest
        refine ⟨d :: init, c, tail, rfl, hc, hbody, hend, ?_⟩
        rw [List.cons_append, conditionFrom_cons_eq_some_iff]
        refine .inr ⟨hnone.imp_right fun hnone => ?_, hd, hread⟩
        -- An earlier `then` in this part would be one in the whole text too.
        rw [Option.eq_none_iff_forall_ne_some]
        intro found hfound
        obtain ⟨other, hother⟩ := (afterThen?_eq_some_iff.mp hfound).append hline hend
        have hwhole := afterThen?_eq_some_iff.mpr hother
        rw [List.cons_append, hnone] at hwhole
        cases hwhole

theorem takeWhile_blank_append {init : List Char} (hc : isBlank c = false) :
    (init ++ [c] ++ tail).takeWhile isBlank = (init ++ [c]).takeWhile isBlank := by
  rw [List.takeWhile_append, if_neg]
  intro hlength
  have hall := (List.takeWhile_prefix _).eq_of_length hlength
  have hblank := List.takeWhile_eq_self_iff.mp hall c (by simp)
  rw [hc] at hblank
  cases hblank

/-- Where the search for a condition stops, nothing after its `then` has been
looked at. -/
theorem exists_of_findCondition {gap : Nat} (hline : '\n' ∉ text) (hgap : gap ≤ text.length)
    (h : (List.range gap).findSome? (fun kept => conditionFrom [] (text.drop (gap - kept))) =
      some (condition, body)) :
    ∃ init c tail, text = init ++ [c] ++ tail ∧ isBlank c = false ∧ body = trimLeft tail ∧
      (gap ≤ (init ++ [c]).length →
        (List.range gap).findSome? (fun kept => conditionFrom [] ((init ++ [c]).drop (gap - kept))) =
          some (condition, [])) := by
  obtain ⟨before, kept, later, hrange, hread, hbefore⟩ := List.findSome?_eq_some_iff.mp h
  obtain ⟨init, c, tail, hparts, hc, hbody, hend, hthrough⟩ :=
    exists_of_conditionFrom (fun hmem => hline (List.mem_of_mem_drop hmem)) hread
  have htext : text = (text.take (gap - kept) ++ init) ++ [c] ++ tail := by
    rw [List.append_assoc, List.append_assoc, ← List.append_assoc init, ← hparts,
      List.take_append_drop]
  refine ⟨text.take (gap - kept) ++ init, c, tail, htext, hc, hbody, fun hmost => ?_⟩
  generalize htake : text.take (gap - kept) = front at htext hmost ⊢
  refine List.findSome?_eq_some_iff.mpr ⟨before, kept, later, hrange, ?_, fun earlier hearlier => ?_⟩
  · have hlength : gap - kept = front.length := by
      rw [← htake, List.length_take, Nat.min_eq_left (Nat.le_trans (Nat.sub_le gap kept) hgap)]
    rw [hlength, List.append_assoc, List.drop_left, hthrough]
  · have hnone := hbefore earlier hearlier
    cases hfound : conditionFrom [] ((front ++ init ++ [c]).drop (gap - earlier)) with
    | none => rfl
    | some found =>
        have hdrop : text.drop (gap - earlier) =
            (front ++ init ++ [c]).drop (gap - earlier) ++ tail := by
          rw [htext, List.drop_append_of_le_length (Nat.le_trans (Nat.sub_le gap earlier) hmost)]
        have hlineDrop : '\n' ∉ (front ++ init ++ [c]).drop (gap - earlier) ++ tail := by
          rw [← hdrop]
          exact fun hmem => hline (List.mem_of_mem_drop hmem)
        obtain ⟨other, hother⟩ := conditionFrom_append hfound hlineDrop hend
        rw [← hdrop, hnone] at hother
        cases hother

/-- A conditional stands as far as its `then` without its body. -/
theorem exists_of_ifThen? (hline : '\n' ∉ text) (h : ifThen? text = some (condition, body)) :
    ∃ init c tail, text = init ++ [c] ++ tail ∧ isBlank c = false ∧ body = trimLeft tail ∧
      ifThen? (init ++ [c]) = some (condition, []) := by
  obtain ⟨start, hstart, hsearch⟩ := Option.bind_eq_some_iff.mp h
  obtain ⟨written, rfl, hcase⟩ := parts_of_afterAnyCase? hstart
  obtain ⟨init, c, tail, rfl, hc, hbody, hfind⟩ :=
    exists_of_findCondition (fun hmem => hline (List.mem_append_right _ hmem))
      (List.takeWhile_prefix _).length_le hsearch
  refine ⟨written ++ init, c, tail, by simp, hc, hbody, ?_⟩
  rw [takeWhile_blank_append hc] at hfind
  rw [List.append_assoc, ifThen?, afterAnyCase?_append hcase]
  exact hfind (List.takeWhile_prefix _).length_le

theorem openingLine_eq {init : List Char} (hc : isBlank c = false) :
    openingLine (init ++ [c] ++ tail) (trimLeft tail) = init ++ [c] := by
  obtain ⟨gap, hgap, hparts⟩ := exists_trimLeft tail
  have hlength : (init ++ [c] ++ tail).length - (trimLeft tail).length =
      (init ++ [c] ++ gap).length := by
    have htail := congrArg List.length hparts
    simp only [List.length_append] at htail ⊢
    omega
  have htake : (init ++ [c] ++ tail).take (init ++ [c] ++ gap).length = init ++ [c] ++ gap := by
    rw [hparts, ← List.append_assoc, List.take_left]
  rw [openingLine, hlength, htake, trimRight_eq, List.reverse_append, trimLeft_append hgap.reverse,
    List.reverse_append, List.reverse_singleton, List.singleton_append, trimLeft_cons hc,
    List.reverse_cons, List.reverse_reverse]

/-- The line that opens a conditional has its condition and no body. -/
theorem ifThen?_openingLine (hline : '\n' ∉ text) (h : ifThen? text = some (condition, body)) :
    ifThen? (openingLine text body) = some (condition, []) := by
  obtain ⟨init, c, tail, rfl, hc, rfl, hopening⟩ := exists_of_ifThen? hline h
  rwa [openingLine_eq hc]

end LossyConsensus.Source
