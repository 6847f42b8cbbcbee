/-
# Reading phases

The UPDATE RULE section is a sequence of phases.  A phase is a header followed
by a rule, on the header's line or below it; a rule without a header is a phase
of every round.  A rule on its own lines may be a block

    if <predicate> then
      <rule>
    else
      <rule>
    end

with the `else` part and the `end` optional; in `else if` the inner conditional
takes the closing `end`.
-/

import LossyConsensus.Source.Rule

namespace LossyConsensus.Source

open LossyConsensus.Protocol LossyConsensus.Text

/-- A line of a source text: its number and its trimmed characters. -/
abbrev Line := Nat × List Char

/-- A fault in a protocol text at a line. -/
def refuse {α : Type} (line : Nat) (fault : ProtocolFault) : Except ParseError α :=
  .error (.refused (some line) fault)

/-- Tie the errors of a rule to its line. -/
def onLine {α : Type} (line : Nat) (result : Except RuleError α) : Except ParseError α :=
  result.mapError (RuleError.at (some line))

/-- A header of a phase: its kind, the rounds it waits, and the rest of the
line. -/
structure PhaseHeader where
  kind : PhaseKind
  after : Option Int
  rest : List Char

/-- What follows a phase keyword: blanks, an optional colon, and the trimmed
rest of the line. -/
def afterColon (text : List Char) : List Char :=
  match trimLeft text with
  | ':' :: rest => trim rest
  | rest => trim rest

/-- The rest of the line after a keyword that ends as a word. -/
def keyword? (word : String) (text : List Char) : Option (List Char) := do
  let rest ← after? word.toList text
  if atWordEnd rest then some (afterColon rest) else none

/-- The header `AFTER <n> ROUNDS`, the last letter being optional: the digits
of the number and the rest of the line. -/
def afterHeader? (text : List Char) : Option (List Char × List Char) := do
  let (digits, rest) ← number? (← blanks? (← after? "AFTER".toList text))
  let rest ← after? "ROUND".toList (← blanks? rest)
  let rest := (after? "S".toList rest).getD rest
  return (digits, afterColon rest)

/-- The header `UNTIL <word>`: the word and the rest of the line. -/
def untilHeader? (text : List Char) : Option (List Char × List Char) := do
  let rest ← blanks? (← after? "UNTIL".toList text)
  let word := rest.takeWhile isWordChar
  if word.isEmpty then none else some (word, afterColon (rest.dropWhile isWordChar))

/-- Whether a text begins with the first word of a header. -/
def beginsHeader (text : List Char) : Bool :=
  ["EACH", "FIRST", "AFTER", "UNTIL"].any fun word =>
    (after? word.toList text).any atWordEnd

/-- The phase header on a line, if there is one. -/
def phaseHeader? (line : Line) : Except ParseError (Option PhaseHeader) :=
  let (number, text) := line
  match keyword? "EACH ROUND" text with
  | some rest => .ok (some { kind := .eachRound, after := none, rest })
  | none => match keyword? "FIRST ROUND" text with
    | some rest => .ok (some { kind := .firstRound, after := none, rest })
    | none => match afterHeader? text with
      | some (digits, rest) => do
          let rounds ← (readNumber digits).mapError .unconvertible
          return some { kind := .afterRounds, after := some rounds, rest }
      | none => match untilHeader? text with
        | some (word, rest) =>
            if lower word == "consensus".toList then
              .ok (some { kind := .untilConsensus, after := none, rest })
            else refuse number .untilWhat
        | none => match keyword? "END" text with
          | some rest => .ok (some { kind := .atEnd, after := none, rest })
          | none =>
              if beginsHeader text then
                refuse number (.malformedPhase (String.ofList text))
              else .ok none

/-- Whether a line continues or closes a block. -/
def isBlockKeyword (text : List Char) : Bool :=
  text == "else".toList || text == "end".toList || startsWith "else ".toList text

/-- The conditional that follows `else` on the same line. -/
def elseIf? (text : List Char) : Option (List Char) := do
  let rest ← blanks? (← after? "else".toList text)
  if (← after? "if".toList rest).head?.any isBlank then some rest else none

/-- The lines after an `end` that closes a block, or all of them without
one. -/
def dropEndLine (lines : List Line) : List Line :=
  match lines with
  | (number, text) :: rest => if text == "end".toList then rest else (number, text) :: rest
  | [] => []

theorem length_dropEndLine_le (lines : List Line) :
    (dropEndLine lines).length ≤ lines.length := by
  cases lines with
  | nil => exact Nat.le_refl _
  | cons line rest =>
    simp only [dropEndLine]
    split <;> simp

/-- A rule read from a line and the lines after it, with the lines left. -/
abbrev BlockResult (rest : List Line) :=
  Except ParseError (Rule Float × { left : List Line // left.length ≤ rest.length })

/-- Read the rule whose first line is `text`, numbered `number`, and whose
further lines begin `rest`. -/
def readBlock (v : Vocabulary) (number : Nat) (text : List Char) (rest : List Line) :
    BlockResult rest :=
  match ifThen? text with
  | none =>
      if startsWith "if ".toList (lower text) then refuse number .expectedThen
      else do
        let rule ← onLine number (readRule v text)
        return (rule, ⟨rest, Nat.le_refl _⟩)
  | some (condition, body) =>
      if !body.isEmpty then do
        let rule ← onLine number (readRule v text)
        return (rule, ⟨rest, Nat.le_refl _⟩)
      else do
        let predicate ← onLine number (readPredicate v condition)
        match hrest : rest with
        | [] => refuse number (.rule .emptyConditional)
        | (nextNumber, next) :: following =>
            if isBlockKeyword next then
              refuse number (.rule .emptyConditional)
            let (yes, ⟨left, hleft⟩) ← readBlock v nextNumber next following
            match left, hleft with
            | [], _ => return (.onlyIf predicate yes, ⟨[], Nat.zero_le _⟩)
            | (elseNumber, elseText) :: others, hothers =>
                if elseText == "else".toList then
                  match others, hothers with
                  | [], _ => refuse elseNumber .emptyElse
                  | (noNumber, noText) :: afterwards, hafterwards =>
                      if isBlockKeyword noText then
                        refuse noNumber (.strayKeyword (String.ofList noText))
                      let (no, ⟨kept, hkept⟩) ← readBlock v noNumber noText afterwards
                      return (.choose predicate yes no, ⟨dropEndLine kept, by
                        subst hrest
                        have := length_dropEndLine_le kept
                        simp only [List.length_cons] at *
                        omega⟩)
                else match elseIf? elseText with
                  | some conditional =>
                      let (no, ⟨kept, hkept⟩) ← readBlock v elseNumber conditional others
                      return (.choose predicate yes no, ⟨kept, by
                        subst hrest
                        simp only [List.length_cons] at *
                        omega⟩)
                  | none =>
                      let kept := dropEndLine ((elseNumber, elseText) :: others)
                      return (.onlyIf predicate yes, ⟨kept, by
                        subst hrest
                        have := length_dropEndLine_le ((elseNumber, elseText) :: others)
                        simp only [List.length_cons, kept] at *
                        omega⟩)
termination_by rest.length
decreasing_by all_goals subst hrest; simp only [List.length_cons] at *; omega

/-- Read a rule that begins a block of its own: a line that continues or closes
a block cannot stand there. -/
def readFreshBlock (v : Vocabulary) (line : Line) (rest : List Line) : BlockResult rest :=
  if isBlockKeyword line.2 then refuse line.1 (.strayKeyword (String.ofList line.2))
  else readBlock v line.1 line.2 rest

/-- Read the phases of the UPDATE RULE section; `ended` tells whether an END
phase has been read. -/
def readPhases (v : Vocabulary) (ended : Bool) (lines : List Line) :
    Except ParseError (List (Phase Float)) :=
  match lines with
  | [] => .ok []
  | line :: rest => do
      match ← phaseHeader? line with
      | none =>
          let (rule, ⟨left, _hleft⟩) ← readFreshBlock v line rest
          let phases ← readPhases v ended left
          return { kind := .eachRound, rule } :: phases
      | some header =>
          let isEnd := header.kind == .atEnd
          if isEnd && ended then
            refuse line.1 .secondEnd
          if header.rest.isEmpty then
            match rest with
            | [] => refuse line.1 (.missingRule (String.ofList line.2))
            | next :: following =>
                let (rule, ⟨left, _hleft⟩) ← readFreshBlock v next following
                let phases ← readPhases v (ended || isEnd) left
                return { kind := header.kind, rule, after := header.after } :: phases
          else
            let rule ← onLine line.1 (readRule v header.rest)
            let phases ← readPhases v (ended || isEnd) rest
            return { kind := header.kind, rule, after := header.after } :: phases
termination_by lines.length
decreasing_by all_goals simp only [List.length_cons] at *; omega

end LossyConsensus.Source
