/-
# Characters of words

Decimal digits of every script, word characters, small letters, and the
comparison of a word with its ASCII spelling that disregards case.
-/

import LossyConsensus.Text.CaseTable
import LossyConsensus.Text.WordTable

namespace LossyConsensus.Text

/-- Whether a code point lies in one of the inclusive ranges. -/
def inRanges (ranges : List (Nat × Nat)) (n : Nat) : Bool :=
  ranges.any fun (first, last) => first ≤ n && n ≤ last

/-- The zeros of the decimal digit runs beyond ASCII; the other nine digits of
each run follow its zero. -/
def digitZeros : List Nat :=
  [1632, 1776, 1984, 2406, 2534, 2662, 2790, 2918, 3046, 3174, 3302, 3430, 3558, 3664, 3792,
   3872, 4160, 4240, 6112, 6160, 6470, 6608, 6784, 6800, 6992, 7088, 7232, 7248, 42528, 43216,
   43264, 43472, 43504, 43600, 44016, 65296, 66720, 68912, 69734, 69872, 69942, 70096, 70384,
   70736, 70864, 71248, 71360, 71472, 71904, 72016, 72784, 73040, 73120, 92768, 92864, 93008,
   120782, 120792, 120802, 120812, 120822, 123200, 123632, 125264, 130032]

/-- The value of a decimal digit of any script. -/
def digitValue? (c : Char) : Option Nat :=
  let n := c.toNat
  if n < 128 then
    if 48 ≤ n && n ≤ 57 then some (n - 48) else none
  else
    (digitZeros.find? fun first => first ≤ n && n < first + 10).map fun first => n - first

/-- Whether a character is a decimal digit of any script. -/
def isDigit (c : Char) : Bool :=
  (digitValue? c).isSome

/-- The number that a run of digits denotes; characters that are no digits are
passed over. -/
def digitsValue (digits : List Char) : Nat :=
  digits.foldl (fun value c => match digitValue? c with
    | some d => 10 * value + d
    | none => value) 0

/-- Whether a character is an ASCII letter or digit. -/
def isAsciiAlphanumeric (c : Char) : Bool :=
  c.isAlpha || c.isDigit

/-- Whether a character belongs to a word: a letter, digit or numeral of any
script, or an underscore. -/
def isWordChar (c : Char) : Bool :=
  if c.toNat < 128 then isAsciiAlphanumeric c || c == '_' else inRanges wordRanges c.toNat

/-- The small form of a character, without regard to its neighbours.  The only
capital with a small form of two characters is the dotted capital I. -/
def lowerChar (c : Char) : List Char :=
  let n := c.toNat
  if n < 128 then [c.toLower]
  else if n == 0x130 then ['i', Char.ofNat 0x307]
  else
    match capitalRuns.find? fun run =>
        run.first ≤ n && n ≤ run.last && (n - run.first) % run.step == 0 with
    | some run => [Char.ofNat ((n : Int) + run.shift).toNat]
    | none => [c]

/-- Whether a character has letter case. -/
def isCased (c : Char) : Bool :=
  if c.toNat < 128 then c.isAlpha else inRanges casedRanges c.toNat

/-- Whether a case context looks through a character. -/
def isCaseIgnorable (c : Char) : Bool :=
  if c.toNat < 128 then c == '\'' || c == '.' || c == ':' || c == '^' || c.toNat == 96
  else inRanges caseIgnorableRanges c.toNat

/-- Whether the nearest character that a case context does not ignore is
cased. -/
def nearestIsCased (neighbours : List Char) : Bool :=
  match neighbours.dropWhile isCaseIgnorable with
  | [] => false
  | c :: _ => isCased c

/-- The small form of a text whose part before it is `before`, the nearest
character first.  A capital sigma that ends a word becomes a final sigma. -/
def lowerFrom (before : List Char) : List Char → List Char
  | [] => []
  | c :: rest =>
      let small :=
        if c.toNat == 0x3a3 then
          if nearestIsCased before && !nearestIsCased rest then [Char.ofNat 0x3c2]
          else [Char.ofNat 0x3c3]
        else lowerChar c
      small ++ lowerFrom (c :: before) rest

/-- The text in small letters. -/
def lower (text : List Char) : List Char :=
  lowerFrom [] text

/-- Whether a character is the ASCII letter `small` in any case.  Besides the
two ASCII cases these are the long s for `s`, the dotless and the dotted I for
`i`, and the kelvin sign for `k`. -/
def isCaseOf (small : Char) (c : Char) : Bool :=
  c.toLower == small || (small == 's' && c.toNat == 0x17f) ||
    (small == 'i' && (c.toNat == 0x131 || c.toNat == 0x130)) ||
    (small == 'k' && c.toNat == 0x212a)

end LossyConsensus.Text
