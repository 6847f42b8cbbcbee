/-
# Brackets

Divisions of a text that look only outside brackets: at commas, at the first
occurrence of a word, and at the last binary operator; and the removal of
parentheses that enclose the whole text.

Depth is counted, not matched: round and square brackets count alike, and a
closing bracket without an opening one makes the depth negative.  Only depth
zero counts as outside.
-/

import LossyConsensus.Text.Scan

namespace LossyConsensus.Text

/-- Whether a character opens a bracket. -/
def isOpening (c : Char) : Bool := c == '(' || c == '['

/-- Whether a character closes a bracket. -/
def isClosing (c : Char) : Bool := c == ')' || c == ']'

/-- Whether a text in parentheses of the given depth keeps its first one open
up to its last character.  Square brackets do not count here. -/
def staysOpen (depth : Nat) : List Char → Bool
  | [] => true
  | [_] => true
  | c :: d :: rest =>
      let depth := if c == '(' then depth + 1 else if c == ')' then depth - 1 else depth
      depth != 0 && staysOpen depth (d :: rest)

/-- Whether parentheses enclose the whole text. -/
def isEnclosed (text : List Char) : Bool :=
  text.head? == some '(' && text.getLast? == some ')' && staysOpen 0 text

/-- The text between its first and its last character, trimmed. -/
def inner (text : List Char) : List Char :=
  trim (text.drop 1).dropLast

theorem length_inner_lt {text : List Char} (h : text ≠ []) : (inner text).length < text.length := by
  have htrim := length_trim_le (text.drop 1).dropLast
  have hpos := List.length_pos_iff.mpr h
  simp only [inner, List.length_dropLast, List.length_drop] at *
  omega

theorem ne_nil_of_isEnclosed {text : List Char} (h : isEnclosed text = true) : text ≠ [] := by
  rintro rfl
  simp [isEnclosed] at h

/-- The text without the parentheses that enclose all of it. -/
def stripEnclosing (text : List Char) : List Char :=
  if _h : isEnclosed text then stripEnclosing (inner text) else text
termination_by text.length
decreasing_by exact length_inner_lt (ne_nil_of_isEnclosed _h)

theorem length_stripEnclosing_le (text : List Char) :
    (stripEnclosing text).length ≤ text.length := by
  fun_induction stripEnclosing text with
  | case1 text h ih => exact Nat.le_trans ih (Nat.le_of_lt (length_inner_lt (ne_nil_of_isEnclosed h)))
  | case2 text h => exact Nat.le_refl _

theorem length_stripEnclosing_lt {text : List Char} (h : stripEnclosing text ≠ text) :
    (stripEnclosing text).length < text.length := by
  rw [stripEnclosing] at h ⊢
  split at h
  · next henclosed =>
    simp only [henclosed]
    exact Nat.lt_of_le_of_lt (length_stripEnclosing_le _)
      (length_inner_lt (ne_nil_of_isEnclosed henclosed))
  · exact absurd rfl h

/-- The parts of a text between separators outside brackets; `part` holds the
part already begun, the latest character first. -/
def splitOutsideFrom (separator : Char) (depth : Int) (part : List Char) :
    List Char → List (List Char)
  | [] => [part.reverse]
  | c :: rest =>
      let depth := if isOpening c then depth + 1 else if isClosing c then depth - 1 else depth
      if c == separator && depth == 0 then
        part.reverse :: splitOutsideFrom separator depth [] rest
      else splitOutsideFrom separator depth (c :: part) rest

/-- The trimmed parts of a text between separators outside brackets. -/
def splitOutside (separator : Char) (text : List Char) : List (List Char) :=
  (splitOutsideFrom separator 0 [] text).map trim

/-- Divide a text at the first place outside brackets where `word` stands in
`shown`, the form in which the text is compared.  The comparison is by
position: `shown` advances by one character with the text. -/
def cutOutsideFrom (word : List Char) (depth : Int) (seen shown : List Char) :
    List Char → Option (List Char × List Char)
  | [] => none
  | c :: rest =>
      if isOpening c then cutOutsideFrom word (depth + 1) (c :: seen) (shown.drop 1) rest
      else if isClosing c then cutOutsideFrom word (depth - 1) (c :: seen) (shown.drop 1) rest
      else if depth == 0 && startsWith word shown then
        some (seen.reverse, (c :: rest).drop word.length)
      else cutOutsideFrom word depth (c :: seen) (shown.drop 1) rest

/-- The text before and after the first occurrence of a word outside
brackets. -/
def cutOutside? (word text : List Char) : Option (List Char × List Char) :=
  cutOutsideFrom word 0 [] text text

/-- The text before and after the first occurrence outside brackets of a word
of small letters, in whatever case the text is written. -/
def cutOutsideAnyCase? (word text : List Char) : Option (List Char × List Char) :=
  cutOutsideFrom word 0 [] (lower text) text

theorem length_cutOutsideFrom {word seen shown text left right : List Char} {depth : Int}
    (h : cutOutsideFrom word depth seen shown text = some (left, right)) :
    left.length < seen.length + text.length ∧ right.length ≤ text.length - word.length := by
  induction text generalizing depth seen shown with
  | nil => simp [cutOutsideFrom] at h
  | cons c rest ih =>
    simp only [cutOutsideFrom] at h
    split at h
    · have := ih h
      simp only [List.length_cons] at *
      omega
    · split at h
      · have := ih h
        simp only [List.length_cons] at *
        omega
      · split at h
        · obtain ⟨rfl, rfl⟩ := by simpa using h
          simp
        · have := ih h
          simp only [List.length_cons] at *
          omega

/-- Whether a number that ends the reversed text begins where no letter, digit
or underscore of ASCII precedes it. -/
def numberBegins : List Char → Bool
  | [] => false
  | c :: rest =>
      isDigit c && (!rest.head?.any (fun d => isAsciiAlphanumeric d || d == '_') ||
        numberBegins rest)

/-- Whether a text, given in reverse, ends in a number and the mark of its
exponent. -/
def endsInExponentMark (reversed : List Char) : Bool :=
  match reversed with
  | [] => false
  | mark :: before =>
      (mark == 'e' || mark == 'E') &&
        (numberBegins before ||
          match before.dropWhile isDigit with
          | '.' :: whole => numberBegins whole
          | _ => false)

/-- Whether an operator after a text, given in reverse, joins two operands: it
does not at the front, after another operator, an opening parenthesis or a
comma, and not as the sign of an exponent. -/
def isJoining (operator : Char) (reversed : List Char) : Bool :=
  let before := trimLeft reversed
  match before with
  | [] => false
  | c :: _ =>
      !("+-*/(,".toList.contains c) &&
        !((operator == '+' || operator == '-') && endsInExponentMark before)

/-- Divide a reversed text at its last joining operator outside brackets;
`right` holds what follows. -/
def cutOperatorFrom (operators : List Char) (depth : Int) (right : List Char) :
    List Char → Option (List Char × Char × List Char)
  | [] => none
  | c :: before =>
      if isClosing c then cutOperatorFrom operators (depth + 1) (c :: right) before
      else if isOpening c then cutOperatorFrom operators (depth - 1) (c :: right) before
      else if depth == 0 && operators.contains c && isJoining c before then
        some (before.reverse, c, right)
      else cutOperatorFrom operators depth (c :: right) before

/-- The text before and after its last joining operator outside brackets, with
the operator. -/
def cutOperator? (operators text : List Char) : Option (List Char × Char × List Char) :=
  cutOperatorFrom operators 0 [] text.reverse

theorem length_cutOperatorFrom {operators right before left following : List Char} {c : Char}
    {depth : Int} (h : cutOperatorFrom operators depth right before = some (left, c, following)) :
    left.length + following.length + 1 = before.length + right.length := by
  induction before generalizing depth right with
  | nil => simp [cutOperatorFrom] at h
  | cons d before ih =>
    simp only [cutOperatorFrom] at h
    split at h
    · have := ih h
      simp only [List.length_cons] at *
      omega
    · split at h
      · have := ih h
        simp only [List.length_cons] at *
        omega
      · split at h
        · obtain ⟨rfl, rfl, rfl⟩ := by simpa using h
          simp
          omega
        · have := ih h
          simp only [List.length_cons] at *
          omega

theorem length_cutOperator? {operators text left right : List Char} {c : Char}
    (h : cutOperator? operators text = some (left, c, right)) :
    left.length < text.length ∧ right.length < text.length := by
  have := length_cutOperatorFrom h
  simp only [List.length_reverse, List.length_nil] at this
  omega

end LossyConsensus.Text
