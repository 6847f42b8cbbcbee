/-
# How the reader divides a predicate

The reader of predicates takes off the parentheses that enclose a text, and goes on with
the first of its branches that finds something: the connectives, from the loosest on, the
word of negation, the signs of comparisons, and the atoms at last.  Each branch is stated
once here, by what the scans before it find; what the scans find in a given text is told
apart from it.
-/

import LossyConsensus.Proofs.Source.Fragment

namespace LossyConsensus.Source

open LossyConsensus.Protocol LossyConsensus.Text

variable {v : Vocabulary} {p : Predicate Float} {text rest body left right : List Char}

/-! ## The branches of the reader -/

/-- How the reader goes on with a trimmed text that no parentheses enclose. -/
def readConnected (v : Vocabulary) (text : List Char) : Except RuleError (Predicate Float) :=
  match cutOutsideAnyCase? " or ".toList text with
  | some (left, right) => do
      let leftPart ← readPredicate v left
      let rightPart ← readPredicate v right
      return .disj leftPart rightPart
  | none => match cutOutsideAnyCase? " and ".toList text with
    | some (left, right) => do
        let leftPart ← readPredicate v left
        let rightPart ← readPredicate v right
        return .conj leftPart rightPart
    | none => match negated? text with
      | some rest => do
          let operand ← readPredicate v rest
          return .neg operand
      | none => match comparison? text with
        | some (left, relation, right) => do
            let leftExpr ← readExpr v left
            let rightExpr ← readExpr v right
            return .compare relation leftExpr rightExpr
        | none => readAtom v text

/-- How the reader goes on with a text that no connective divides. -/
def readUnjoined (v : Vocabulary) (text : List Char) : Except RuleError (Predicate Float) :=
  match negated? text with
  | some rest => do
      let operand ← readPredicate v rest
      return .neg operand
  | none => match comparison? text with
    | some (left, relation, right) => do
        let leftExpr ← readExpr v left
        let rightExpr ← readExpr v right
        return .compare relation leftExpr rightExpr
    | none => readAtom v text

section Branch

variable {l r : Predicate Float} {below above : Expr Float} {op : Relation}

theorem readConnected_disj (hcut : cutOutsideAnyCase? " or ".toList text = some (left, right))
    (hleft : readPredicate v left = .ok l) (hright : readPredicate v right = .ok r) :
    readConnected v text = .ok (.disj l r) := by
  simp only [readConnected, hcut, hleft, hright, bind, Except.bind]
  rfl

theorem readConnected_conj (hor : cutOutsideAnyCase? " or ".toList text = none)
    (hcut : cutOutsideAnyCase? " and ".toList text = some (left, right))
    (hleft : readPredicate v left = .ok l) (hright : readPredicate v right = .ok r) :
    readConnected v text = .ok (.conj l r) := by
  simp only [readConnected, hor, hcut, hleft, hright, bind, Except.bind]
  rfl

theorem readConnected_unjoined (hor : cutOutsideAnyCase? " or ".toList text = none)
    (hand : cutOutsideAnyCase? " and ".toList text = none) :
    readConnected v text = readUnjoined v text := by
  rw [readConnected, hor]
  dsimp only
  rw [hand]
  rfl

theorem readUnjoined_neg (hnegated : negated? text = some rest)
    (hread : readPredicate v rest = .ok p) : readUnjoined v text = .ok (.neg p) := by
  simp only [readUnjoined, hnegated, hread, bind, Except.bind]
  rfl

theorem readUnjoined_compare (hnegated : negated? text = none)
    (hcomparison : comparison? text = some (left, op, right))
    (hleft : readExpr v left = .ok below) (hright : readExpr v right = .ok above) :
    readUnjoined v text = .ok (.compare op below above) := by
  simp only [readUnjoined, hnegated, hcomparison, hleft, hright, bind, Except.bind]
  rfl

theorem readUnjoined_atom (hnegated : negated? text = none) (hcomparison : comparison? text = none) :
    readUnjoined v text = readAtom v text := by
  rw [readUnjoined, hnegated]
  dsimp only
  rw [hcomparison]

end Branch

theorem readPredicate_eq (v : Vocabulary) (source : List Char) :
    readPredicate v source =
      if (trim source).isEmpty then .error (.refused .emptyPredicate)
      else if stripEnclosing (trim source) ≠ trim source then
        readPredicate v (stripEnclosing (trim source))
      else readConnected v (trim source) := by
  rw [readPredicate]
  by_cases hempty : (trim source).isEmpty = true
  · simp only [hempty, if_true]
  · simp only [hempty, Bool.false_eq_true, if_false]
    by_cases hstrip : stripEnclosing (trim source) ≠ trim source
    · simp only [dif_pos hstrip, if_pos hstrip]
    · simp only [dif_neg hstrip, if_neg hstrip]
      split
      · next hor => rw [readConnected, hor]
      · next hor =>
        split
        · next hand =>
          rw [readConnected, hor]
          dsimp only
          rw [hand]
        · next hand =>
          rw [readConnected_unjoined hor hand]
          split
          · next hnot => rw [readUnjoined, hnot]
          · next hnot =>
            split
            · next hcomparison =>
              rw [readUnjoined, hnot]
              dsimp only
              rw [hcomparison]
            · next hcomparison => rw [readUnjoined_atom hnot hcomparison]

theorem readPredicate_trim (v : Vocabulary) (source : List Char) :
    readPredicate v (trim source) = readPredicate v source := by
  rw [readPredicate_eq, readPredicate_eq v source, trim_trim]

theorem readPredicate_of_open (htrim : Trimmed text) (henclosed : isEnclosed text = false) :
    readPredicate v text = readConnected v text := by
  have hempty : ¬ text.isEmpty = true := by
    rw [List.isEmpty_iff]
    exact htrim.ne_nil
  rw [readPredicate_eq, htrim.trim_self, if_neg hempty, stripEnclosing_eq_self henclosed,
    if_neg fun h => h rfl]

/-- A predicate in parentheses is read as the predicate. -/
theorem readPredicate_enclosed (h : Balanced body) :
    readPredicate v (enclosed body) = readPredicate v body := by
  have hempty : ¬ ('(' :: (body ++ [')'])).isEmpty = true := by simp
  rw [readPredicate_eq, enclosed, (trimmed_round body).trim_self, if_neg hempty,
    if_pos (stripEnclosing_round_ne h), stripEnclosing_round h]
  by_cases hnil : trim body = []
  · rw [hnil, stripEnclosing_eq_self (by decide), ← readPredicate_trim v body, hnil]
  · by_cases hmore : stripEnclosing (trim body) = trim body
    · rw [hmore, readPredicate_trim]
    · rw [readPredicate_eq v body, if_neg (by simpa using hnil), if_pos hmore]

/-! ## Negations -/

theorem negated?_eq_none_of_starts
    (h : ∀ stop ∈ [' ', '('], ¬ startsWith ("not".toList ++ [stop]) (lower text) = true) :
    negated? text = none := by
  have hneither : ¬ (startsWith "not ".toList (lower text) ||
      startsWith "not(".toList (lower text)) = true := by
    rw [Bool.or_eq_true, not_or]
    exact ⟨h ' ' (by decide), h '(' (by decide)⟩
  rw [negated?, if_neg hneither]

/-! ## Comparisons -/

theorem exists_of_sign (op : Relation) :
    ∃ first rest, op.sign.toList = first :: rest ∧ first ∈ "<>=!".toList := by
  cases op with
  | ge => exact ⟨'>', ['='], rfl, by decide⟩
  | le => exact ⟨'<', ['='], rfl, by decide⟩
  | ne => exact ⟨'!', ['='], rfl, by decide⟩
  | eq => exact ⟨'=', ['='], rfl, by decide⟩
  | gt => exact ⟨'>', [], rfl, by decide⟩
  | lt => exact ⟨'<', [], rfl, by decide⟩

/-- A comparison is found at its sign, if no sign is found of those that the sign does
not hold. -/
theorem comparison?_eq_some_of_cut {op : Relation}
    (hsome : cutOutside? op.sign.toList text = some (left, right))
    (hnone : ∀ sign : Relation, ¬ sign.sign.toList <:+: op.sign.toList →
      cutOutside? sign.sign.toList text = none) : comparison? text = some (left, op, right) := by
  simp only [comparison?, relations, List.map_cons, List.map_nil, List.findSome?_cons]
  -- The signs that are tried before the one that stands there occur in no part of it.
  cases op with
  | ge => rw [hsome]; rfl
  | le => rw [hnone .ge (by decide), hsome]; rfl
  | ne => rw [hnone .ge (by decide), hnone .le (by decide), hsome]; rfl
  | eq => rw [hnone .ge (by decide), hnone .le (by decide), hnone .ne (by decide), hsome]; rfl
  | gt =>
      rw [hnone .ge (by decide), hnone .le (by decide), hnone .ne (by decide),
        hnone .eq (by decide), hsome]
      rfl
  | lt =>
      rw [hnone .ge (by decide), hnone .le (by decide), hnone .ne (by decide),
        hnone .eq (by decide), hnone .gt (by decide), hsome]
      rfl

/-- No comparison is found in a text in which no sign is found. -/
theorem comparison?_eq_none_of_passes
    (h : ∀ op : Relation, Passes id op.sign.toList text []) : comparison? text = none := by
  rw [comparison?, List.findSome?_eq_none_iff]
  intro entry hentry
  obtain ⟨op, _, rfl⟩ := List.mem_map.mp hentry
  have hnone : cutOutside? op.sign.toList text = none := by
    have hcut := (h op).eq_none
    rwa [List.map_id] at hcut
  simp only [hnone, Option.map_none]

/-- A text without signs holds no comparison. -/
theorem comparison?_eq_none (hbalanced : Balanced text) (h : ∀ c ∈ text, c ∉ "<>=!".toList) :
    comparison? text = none := by
  apply comparison?_eq_none_of_passes
  intro op
  obtain ⟨first, rest, hsign, hfirst⟩ := exists_of_sign op
  rw [hsign]
  refine .of_balanced hbalanced fun c hc hsame => ?_
  obtain rfl : c = first := hsame
  exact h c hc hfirst

end LossyConsensus.Source
