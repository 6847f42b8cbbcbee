/-
# The content of single sections

Each function reads the content of one kind of section: the state variable, a
parameter, the initial values, the channel, the leader, a delivery model, the
metrics.
-/

import LossyConsensus.Source.Header

namespace LossyConsensus.Source

open LossyConsensus.Protocol LossyConsensus.Text

/-- The digits up to the end of the text, blanks around them left out. -/
def digitsAtEnd? (text : List Char) : Option (List Char) := do
  let (digits, rest) ← number? (trimLeft text)
  if (trimLeft rest).isEmpty then some digits else none

/-! ### State -/

/-- What may follow the name of the state variable: nothing, or a domain after
`∈` or after `in` and a blank.  The inner value is the trimmed domain. -/
def domainAfter? (text : List Char) : Option (Option (List Char)) :=
  let text := trimLeft text
  if text.isEmpty then some none
  else
    let following := match text with
      | '∈' :: rest => some rest
      | 'i' :: 'n' :: c :: rest => if isBlank c then some rest else none
      | _ => none
    match following with
    | some domain => if domain.isEmpty then none else some (some (trim domain))
    | none => none

/-- What follows the name of the state variable: an optional index, then the
domain. -/
def stateTail? (text : List Char) : Option (Option (List Char)) :=
  let indexed := ["ᵢ", "_i", "[i]"].findSome? fun index => after? index.toList text
  indexed.bind domainAfter? <|> domainAfter? text

/-- The state variable and its domain.  The name is the longest run of letters
and digits that a domain or the end of the line can follow. -/
def readState? (text : List Char) : Option (String × Option String) :=
  let name := text.takeWhile isAsciiAlphanumeric
  if !name.head?.any Char.isAlpha then none
  else (List.range name.length).findSome? fun dropped =>
    let kept := name.length - dropped
    (stateTail? (text.drop kept)).map fun domain =>
      (String.ofList (text.take kept), domain.map String.ofList)

/-! ### Parameters and initial values -/

/-- The range that may follow the name of a parameter. -/
def skipRange? (text : List Char) : Option (List Char) := do
  match trimLeft (← after? "∈".toList text) with
  | '[' :: rest =>
      match rest.dropWhile (· != ']') with
      | _ :: following => if rest.head? == some ']' then none else some (trimLeft following)
      | [] => none
  | _ => none

/-- Whether a character may stand in the value of a parameter. -/
def isValueChar (c : Char) : Bool :=
  c.isDigit || "eE.+-".toList.contains c

/-- The name of a parameter and the text of its value. -/
def parameterParts? (text : List Char) : Option (String × List Char) := do
  let isNameChar (c : Char) : Bool := isAsciiAlphanumeric c || c == '_'
  let name := text.takeWhile isNameChar
  if !isIdentifier name then none
  let rest := trimLeft (text.dropWhile isNameChar)
  let value := trimLeft (← after? "=".toList ((skipRange? rest).getD rest))
  let digits := value.takeWhile isValueChar
  if digits.isEmpty || !(trimLeft (value.dropWhile isValueChar)).isEmpty then none
  return (String.ofList name, digits)

/-- Read a parameter and its value. -/
def readParameter (line : Line) : Except ParseError (String × Float) :=
  let (number, text) := line
  match parameterParts? text with
  | none => refuse number (.malformedParameter (String.ofList text))
  | some (name, digits) =>
      match Decimal.readReal? digits with
      | some value => .ok (name, value)
      | none => refuse number (.malformedNumber (String.ofList digits) name)

/-- The text between square brackets that enclose a line. -/
def bracketed? : List Char → Option (List Char)
  | '[' :: rest => if rest.getLast? == some ']' then some rest.dropLast else none
  | _ => none

/-- Read the list of initial values, one for each process.  Empty places
between commas count for nothing. -/
def readValues (processes header : Nat) (body : List Line) :
    Except ParseError (List Float) :=
  match body with
  | [(number, text)] =>
      match bracketed? text with
      | none => refuse number (.expectedList (String.ofList text))
      | some inside =>
          let parts := (splitOn ',' inside).filter fun part => !(trim part).isEmpty
          match parts.mapM Decimal.readReal? with
          | none => refuse number (.malformedValues (String.ofList text))
          | some values =>
              if values.length != processes then
                refuse number (.valuesLength values.length processes)
              else .ok values
  | _ => refuse header .valuesCount

/-- The two sides of an initial rule, which `=`, `←` or `<-` separates; neither
is empty.  `seen` holds the characters already passed, the latest first. -/
def initialSidesFrom (seen : List Char) : List Char → Option (List Char × List Char)
  | [] => none
  | c :: rest =>
      let following := ["=", "←", "<-"].findSome? fun sign => after? sign.toList (c :: rest)
      match following.filter fun right => !seen.isEmpty && !right.isEmpty with
      | some right => some (seen.reverse, right)
      | none => initialSidesFrom (c :: seen) rest

/-- Read the rule that gives every process its initial value, with its
line. -/
def readInitialRule (v : Vocabulary) (header : Nat) (body : List Line) :
    Except ParseError (Nat × Expr Float) :=
  match body with
  | [(number, text)] =>
      match initialSidesFrom [] text with
      | none => refuse number (.expectedInitialRule v.stateVar (String.ofList text))
      | some (left, right) => do
          let _ ← onLine number (readTarget v (trim left))
          let rule ← onLine number (readExpr v right)
          return (number, rule)
  | _ => refuse header .initialCount

/-- The first fault of an initial rule: it may only combine numbers and the
given names. -/
def initialFault? (names : List String) : Expr Float → Option ProtocolFault
  | .binary _ left right => initialFault? names left <|> initialFault? names right
  | .parameter name => if names.contains name then none else some (.rule (.undeclared name))
  | .literal _ => none
  | _ => some .initialForm

/-! ### Channel and roles -/

/-- Read the guarantee that a channel gives. -/
def readChannel (processes : Nat) (line : Line) : Except ParseError Guarantee :=
  let (number, text) := line
  let small := squeeze (lower text)
  if small == "stochastic".toList then .ok .none
  else match (after? "stochastic with guarantee ".toList small).filter (!·.isEmpty) with
    | none => refuse number (.unknownChannel (String.ofList text))
    | some guarantee =>
        let compact := String.ofList (guarantee.filter (· != ' '))
        if compact == "at_least(1)" then .ok .atLeastOne
        else if compact == "majority" then
          if processes < 2 then refuse number .majorityAlone else .ok .majority
        else refuse number (.unknownGuarantee (String.ofList guarantee))

/-- Read the leader. -/
def readLeader (processes : Nat) (line : Line) : Except ParseError Nat :=
  let (number, text) := line
  let found := do
    let rest ← after? "leader".toList (lower text)
    digitsAtEnd? (← after? "=".toList (trimLeft rest))
  match found with
  | none => refuse number .expectedLeader
  | some digits => do
      let leader ← (readNumber digits).mapError .unconvertible
      if 1 ≤ leader && leader ≤ processes then .ok leader
      else refuse number (.leaderRange processes)

/-! ### Delivery models -/

/-- What follows an option's name and its equals sign. -/
def optionAt? (name : String) (text : List Char) : Option (List Char) := do
  let rest ← after? name.toList text
  return trimLeft (← after? "=".toList (trimLeft rest))

/-- The first value of an option in a text, among the places that `admits`
allows by the character before them; `value` reads the value. -/
def findOption? (name : String) (admits : Option Char → Bool)
    (value : List Char → Option (List Char)) (previous : Option Char) :
    List Char → Option (List Char)
  | [] => none
  | c :: rest =>
      let here := if admits previous then (optionAt? name (c :: rest)).bind value else none
      match here with
      | some found => some found
      | none => findOption? name admits value (some c) rest

/-- The word at the front of a text. -/
def frontWord? (text : List Char) : Option (List Char) :=
  let word := text.takeWhile isWordChar
  if word.isEmpty then none else some word

/-- The value of a worded option, or its default. -/
def wordOption (name default : String) (text : List Char) : String :=
  ((findOption? name (fun _ => true) frontWord? none text).map String.ofList).getD default

/-- Read a delivery model for one process or for all of them. -/
def readModel (process : Option Int) (number : Nat) (text : List Char) :
    Except ParseError ModelSpec :=
  let small := lower (trim text)
  if small == ModelKind.standard.word.toList then .ok { kind := .standard, process }
  else if startsWith ModelKind.guaranteed.word.toList small then
    let atWordStart (previous : Option Char) : Bool := !previous.any isWordChar
    match findOption? "k" atWordStart (fun rest => (number? rest).map (·.1)) none small with
    | none => refuse number .guaranteedCount
    | some digits =>
        let scope := wordOption "scope" "per_round" small
        if scope == "per_round" || scope == "total" then do
          let count ← (readNumber digits).mapError .unconvertible
          let options : ModelOptions := { minMessages := some count, scope := some scope }
          return { kind := .guaranteed, options, process }
        else refuse number (.unknownScope scope)
  else if startsWith ModelKind.broadcast.word.toList small then
    let probability := wordOption "probability" "per_source" small
    if probability == "per_source" || probability == "uniform" then
      .ok { kind := .broadcast, options := { probability := some probability }, process }
    else refuse number (.unknownProbability probability)
  else refuse number (.unknownModel (String.ofList text))

/-- The digits of the process of a model entry, and the text of its model. -/
def modelEntry? (text : List Char) : Option (List Char × List Char) := do
  let rest ← blanks? (← afterAnyCase? "process".toList text)
  let (digits, rest) ← number? rest
  let model := trimLeft (← after? ":".toList (trimLeft rest))
  if model.isEmpty then none else some (digits, model)

/-- Read the entries of the MODEL section after those already read. -/
def readModels (processes : Nat) (models : List ModelSpec) :
    List Line → Except ParseError (List ModelSpec)
  | [] => .ok models
  | (number, text) :: rest => do
      let spec ← match modelEntry? text with
        | some (digits, model) => do
            let id ← (readNumber digits).mapError .unconvertible
            if 1 ≤ id && id ≤ processes then readModel (some (id : Int)) number model
            else refuse number (.modelProcess id processes)
        | none => readModel none number text
      if models.any fun other => other.process == spec.process then
        refuse number (.duplicateModel (spec.process.map Int.toNat))
      readModels processes (models ++ [spec]) rest

/-! ### Metrics -/

/-- The words of a text between commas and blanks; `word` holds the word
already begun, the latest character first. -/
def metricWords (word : List Char) : List Char → List (List Char)
  | [] => if word.isEmpty then [] else [word.reverse]
  | c :: rest =>
      if c == ',' || isBlank c then
        if word.isEmpty then metricWords [] rest else word.reverse :: metricWords [] rest
      else metricWords (c :: word) rest

/-- Add a metric by its name. -/
def addMetric (number : Nat) (metrics : Metrics) (word : List Char) :
    Except ParseError Metrics :=
  let small := String.ofList (lower word)
  if small == "discrepancy" then .ok { metrics with discrepancy := true }
  else if small == "consensus" then .ok { metrics with consensus := true }
  else refuse number (.unknownMetric (String.ofList word))

/-- Read the metrics that a section names; a section that names none asks for
both. -/
def readMetrics (body : List Line) : Except ParseError Metrics := do
  let metrics ← body.foldlM (fun metrics (number, text) =>
    (metricWords [] text).foldlM (addMetric number) metrics) (⟨false, false⟩ : Metrics)
  return if metrics.isEmpty then .both else metrics

end LossyConsensus.Source
