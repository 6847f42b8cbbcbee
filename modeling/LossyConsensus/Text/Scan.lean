/-
# Scanning a text from the front

Small readers that take a known word, a run of characters of one class, or a
parenthesised argument from the front of a text.
-/

import LossyConsensus.Text.Blank
import LossyConsensus.Text.Letter

namespace LossyConsensus.Text

/-- What follows a word at the front of a text. -/
def after? : List Char → List Char → Option (List Char)
  | [], text => some text
  | _ :: _, [] => none
  | w :: word, c :: text => if w == c then after? word text else none

/-- What follows a word of small letters at the front of a text, in whatever
case the word is written. -/
def afterAnyCase? : List Char → List Char → Option (List Char)
  | [], text => some text
  | _ :: _, [] => none
  | w :: word, c :: text => if isCaseOf w c then afterAnyCase? word text else none

/-- Whether a text begins with a word. -/
def startsWith (word text : List Char) : Bool :=
  (after? word text).isSome

/-- Whether no character of a word stands at the front of a text. -/
def atWordEnd (text : List Char) : Bool :=
  !text.head?.any isWordChar

/-- Whether a text is a non-empty run of decimal digits. -/
def isNumber (text : List Char) : Bool :=
  !text.isEmpty && text.all isDigit

/-- Whether a text is a non-empty run of word characters. -/
def isWord (text : List Char) : Bool :=
  !text.isEmpty && text.all isWordChar

/-- Whether a text stands on one line. -/
def isOneLine (text : List Char) : Bool :=
  !text.contains '\n'

/-- The text between an opening parenthesis at the front and a closing one at
the end. -/
def parenthesised? : List Char → Option (List Char)
  | '(' :: rest => if rest.getLast? == some ')' then some rest.dropLast else none
  | _ => none

/-- A non-empty run of digits at the front of a text, and what follows it. -/
def number? (text : List Char) : Option (List Char × List Char) :=
  let digits := text.takeWhile isDigit
  if digits.isEmpty then none else some (digits, text.dropWhile isDigit)

/-- A non-empty run of blanks at the front of a text is required and
skipped. -/
def blanks? (text : List Char) : Option (List Char) :=
  match text with
  | c :: rest => if isBlank c then some (trimLeft rest) else none
  | [] => none

/-- The parts of a text between separators, the separators left out. -/
def splitOn (separator : Char) : List Char → List (List Char)
  | [] => [[]]
  | c :: rest =>
      match splitOn separator rest with
      | [] => [[c]]
      | part :: parts => if c == separator then [] :: part :: parts else (c :: part) :: parts

/-- The text up to the first place where a word occurs, and what follows the
word; `seen` holds the characters already passed, the latest first. -/
def cutFrom (word : List Char) (seen : List Char) : List Char → Option (List Char × List Char)
  | [] => if word.isEmpty then some (seen.reverse, []) else none
  | c :: rest =>
      match after? word (c :: rest) with
      | some following => some (seen.reverse, following)
      | none => cutFrom word (c :: seen) rest

/-- The text up to the first occurrence of a word, and what follows the
word. -/
def cut? (word text : List Char) : Option (List Char × List Char) :=
  cutFrom word [] text

theorem length_after? {word text rest : List Char} (h : after? word text = some rest) :
    rest.length + word.length = text.length := by
  induction word generalizing text with
  | nil => simp_all [after?]
  | cons w word ih =>
    cases text with
    | nil => simp [after?] at h
    | cons c text =>
      simp only [after?] at h
      split at h
      · have := ih h
        simp only [List.length_cons]
        omega
      · simp at h

theorem length_afterAnyCase? {word text rest : List Char}
    (h : afterAnyCase? word text = some rest) : rest.length + word.length = text.length := by
  induction word generalizing text with
  | nil => simp_all [afterAnyCase?]
  | cons w word ih =>
    cases text with
    | nil => simp [afterAnyCase?] at h
    | cons c text =>
      simp only [afterAnyCase?] at h
      split at h
      · have := ih h
        simp only [List.length_cons]
        omega
      · simp at h

end LossyConsensus.Text
