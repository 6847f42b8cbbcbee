/-
# Reading rules on one line

A rule is a conditional, a choice by received difference, an assignment, the
name of a combination, or an expression, which is then assigned to the
process's own variable.
-/

import LossyConsensus.Source.Predicate

namespace LossyConsensus.Source

open LossyConsensus.Protocol LossyConsensus.Text

/-- What follows a `then` that is preceded by blanks and ends as a word; it
must stand on one line. -/
def afterThen? (text : List Char) : Option (List Char) := do
  let rest ← afterAnyCase? "then".toList (← blanks? text)
  let body := trimLeft rest
  if atWordEnd rest && isOneLine body then some body else none

/-- The shortest non-empty condition that a `then` follows, on one line, and
what stands after it; `seen` holds the characters passed, the latest first. -/
def conditionFrom (seen : List Char) : List Char → Option (List Char × List Char)
  | [] => none
  | c :: rest =>
      match if seen.isEmpty then none else afterThen? (c :: rest) with
      | some body => some (seen.reverse, body)
      | none => if c == '\n' then none else conditionFrom (c :: seen) rest

/-- The condition and the body of `if … then …`, in any case.  The blanks after
`if` belong to the condition only when no other reading exists. -/
def ifThen? (text : List Char) : Option (List Char × List Char) := do
  let rest ← afterAnyCase? "if".toList text
  let gap := (rest.takeWhile isBlank).length
  (List.range gap).findSome? fun kept => conditionFrom [] (rest.drop (gap - kept))

/-- A text without the blanks and the `end` that close it. -/
def dropEnd (text : List Char) : List Char :=
  match after? "dne".toList text.reverse with
  | some before => if before.head?.any isBlank then (trimLeft before).reverse else text
  | none => text

/-- The arguments of a choice by received difference. -/
def differentArguments? (text : List Char) : Option (List (List Char)) :=
  ((call? "if_received_diff_then" text).filter fun found => isOneLine found.2).map fun found =>
    splitOutside ',' found.2

/-- The two sides of an assignment. -/
def assignment? (text : List Char) : Option (List Char × List Char) :=
  cut? "←".toList text <|> cut? "<-".toList text

/-- The name of an indexed variable: a letter followed by letters and digits,
and one of the three forms of the index. -/
def indexedName? (text : List Char) : Option (List Char) :=
  let name := text.takeWhile isAsciiAlphanumeric
  let index := text.dropWhile isAsciiAlphanumeric
  if name.head?.any Char.isAlpha &&
      ["ᵢ".toList, "_i".toList, "[i]".toList].contains index then some name
  else none

/-- The target of an assignment, which must be the state variable. -/
def readTarget (v : Vocabulary) (text : List Char) : Except RuleError Target :=
  let shown := String.ofList text
  let check (name : String) (target : Target) : Except RuleError Target :=
    if name == v.stateVar then .ok target
    else .error (.refused (.foreignTarget shown v.stateVar))
  match indexedName? text with
  | some name => check (String.ofList name) (.indexed (String.ofList name))
  | none =>
      if shown == "self" then .ok (.plain v.stateVar)
      else if isIdentifier text then check shown (.plain shown)
      else .error (.refused (.malformedTarget shown))

/-- The combinations with the words that name them. -/
def combinations : List (String × Combination) :=
  [Combination.average, .min, .max, .midpoint].map fun how => (how.word, how)

/-- A trimmed rule without a condition. -/
def readSimpleRule (v : Vocabulary) (text : List Char) : Except RuleError (Rule Float) :=
  match differentArguments? text with
  | some arguments =>
      match arguments with
      | [different, same] =>
          if different.isEmpty || same.isEmpty then
            .error (.refused (.differentArguments 2))
          else do
            let differentExpr ← readExpr v different
            let sameExpr ← readExpr v same
            return .ifDifferent differentExpr sameExpr
      | _ => .error (.refused (.differentArguments arguments.length))
  | none =>
    match assignment? text with
    | some (left, right) => do
        let target ← readTarget v (trim left)
        let value ← readExpr v right
        return .assign target value
    | none =>
      match combinations.lookup (String.ofList (lower text)) with
      | some how => .ok (.combine how)
      | none =>
          match readExpr v text with
          | .ok value => .ok (.assign (.indexed v.stateVar) value)
          | .error (.refused _) => .error (.refused (.unknownRule (String.ofList text)))
          | .error error => .error error

theorem length_blanks? {text rest : List Char} (h : blanks? text = some rest) :
    rest.length < text.length := by
  cases text with
  | nil => simp [blanks?] at h
  | cons c text =>
    simp only [blanks?] at h
    split at h
    · obtain rfl := by simpa using h
      have := length_trimLeft_le text
      simp only [List.length_cons]
      omega
    · simp at h

theorem length_afterThen? {text body : List Char} (h : afterThen? text = some body) :
    body.length < text.length := by
  simp only [afterThen?, Option.bind_eq_bind, Option.bind_eq_some_iff] at h
  obtain ⟨start, hstart, rest, hrest, h⟩ := h
  split at h
  · obtain rfl := by simpa using h
    have hblanks := length_blanks? hstart
    have hthen := length_afterAnyCase? hrest
    have htrim := length_trimLeft_le rest
    omega
  · simp at h

theorem length_conditionFrom {seen text condition body : List Char}
    (h : conditionFrom seen text = some (condition, body)) : body.length < text.length := by
  induction text generalizing seen with
  | nil => simp [conditionFrom] at h
  | cons c rest ih =>
    simp only [conditionFrom] at h
    split at h
    · next found hfound =>
      obtain ⟨rfl, rfl⟩ := by simpa using h
      split at hfound
      · simp at hfound
      · exact length_afterThen? hfound
    · split at h
      · simp at h
      · have := ih h
        simp only [List.length_cons]
        omega

theorem length_ifThen? {text condition body : List Char}
    (h : ifThen? text = some (condition, body)) : body.length < text.length := by
  simp only [ifThen?, Option.bind_eq_bind, Option.bind_eq_some_iff] at h
  obtain ⟨rest, hrest, h⟩ := h
  obtain ⟨kept, _, hkept⟩ := List.exists_of_findSome?_eq_some h
  have hcondition := length_conditionFrom hkept
  have hif := length_afterAnyCase? hrest
  simp only [List.length_drop] at hcondition
  omega

theorem length_dropEnd_le (text : List Char) : (dropEnd text).length ≤ text.length := by
  simp only [dropEnd]
  split
  · next before hbefore =>
    split
    · have hdrop := length_after? hbefore
      have htrim := length_trimLeft_le before
      simp only [List.length_reverse] at *
      omega
    · exact Nat.le_refl _
  · exact Nat.le_refl _

/-- The body of a conditional on one line, without the `end` that may close
it. -/
def conditionalBody (text : List Char) : List Char :=
  dropEnd (trim text)

theorem length_conditionalBody_le (text : List Char) :
    (conditionalBody text).length ≤ text.length :=
  Nat.le_trans (length_dropEnd_le _) (length_trim_le _)

/-- Read a rule that stands on one line.  Of a conditional's body the part
after the first `else` outside brackets is the alternative. -/
def readRule (v : Vocabulary) (source : List Char) : Except RuleError (Rule Float) :=
  let text := trim source
  if text.isEmpty then .error (.refused .emptyRule)
  else match _h : ifThen? text with
    | none => readSimpleRule v text
    | some (condition, rest) => do
        let predicate ← readPredicate v condition
        let body := conditionalBody rest
        if body.isEmpty then
          throw (.refused .emptyConditional)
        match _hcut : cutOutsideAnyCase? " else ".toList body with
        | none => do
            let rule ← readRule v body
            return .onlyIf predicate rule
        | some (left, right) => do
            let yes ← readRule v left
            let no ← readRule v right
            return .choose predicate yes no
termination_by source.length
decreasing_by
  all_goals
    have hbody := length_conditionalBody_le rest
    have hthen := length_ifThen? _h
    have htrim := length_trim_le source
  · exact Nat.lt_of_le_of_lt hbody (Nat.lt_of_lt_of_le hthen htrim)
  · exact Nat.lt_trans (length_cutOutsideAnyCase? (by decide) _hcut).1
      (Nat.lt_of_le_of_lt hbody (Nat.lt_of_lt_of_le hthen htrim))
  · exact Nat.lt_trans (length_cutOutsideAnyCase? (by decide) _hcut).2
      (Nat.lt_of_le_of_lt hbody (Nat.lt_of_lt_of_le hthen htrim))

/-- Read a predicate that may stand between `if` and `then`. -/
def readCondition (v : Vocabulary) (source : List Char) : Except RuleError (Predicate Float) :=
  match ifThen? (trim source ++ [' ']) with
  | some (condition, _) => readPredicate v condition
  | none => readPredicate v source

end LossyConsensus.Source
