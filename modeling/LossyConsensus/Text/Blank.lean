/-
# Blanks and lines

White space of every script, trimming, and the division of a text into lines.
A line ends at a line feed, a carriage return (alone or before a line feed), a
vertical tab, a form feed, one of the three information separators U+001C to
U+001E, a next-line control, or a Unicode line or paragraph separator.
-/

namespace LossyConsensus.Text

/-- White space: the ASCII blanks and separators, the next-line control, and
every Unicode space, line or paragraph separator. -/
def isBlank (c : Char) : Bool :=
  let n := c.toNat
  (9 ≤ n && n ≤ 13) || (28 ≤ n && n ≤ 32) || n == 0x85 || n == 0xa0 || n == 0x1680 ||
    (0x2000 ≤ n && n ≤ 0x200a) || n == 0x2028 || n == 0x2029 || n == 0x202f ||
    n == 0x205f || n == 0x3000

/-- The text without its leading blanks. -/
def trimLeft (text : List Char) : List Char :=
  text.dropWhile isBlank

/-- The text without its trailing blanks. -/
def trimRight (text : List Char) : List Char :=
  (text.reverse.dropWhile isBlank).reverse

/-- The text without its leading and trailing blanks. -/
def trim (text : List Char) : List Char :=
  trimRight (trimLeft text)

theorem length_trimLeft_le (text : List Char) : (trimLeft text).length ≤ text.length :=
  (List.dropWhile_sublist _).length_le

theorem length_trimRight_le (text : List Char) : (trimRight text).length ≤ text.length := by
  have h := (List.dropWhile_sublist (p := isBlank) (l := text.reverse)).length_le
  simpa [trimRight] using h

theorem length_trim_le (text : List Char) : (trim text).length ≤ text.length :=
  Nat.le_trans (length_trimRight_le _) (length_trimLeft_le _)

/-- The blanks that may surround a numeral: all but the information separators
U+001C to U+001F. -/
def isNumeralBlank (c : Char) : Bool :=
  isBlank c && !(28 ≤ c.toNat && c.toNat ≤ 31)

/-- The text without the blanks that may surround a numeral. -/
def trimNumeral (text : List Char) : List Char :=
  ((text.dropWhile isNumeralBlank).reverse.dropWhile isNumeralBlank).reverse

/-- Every run of blanks becomes one space. -/
def squeeze : List Char → List Char
  | [] => []
  | [c] => if isBlank c then [' '] else [c]
  | c :: d :: rest =>
      if isBlank c then
        if isBlank d then squeeze (d :: rest) else ' ' :: squeeze (d :: rest)
      else c :: squeeze (d :: rest)

/-- Whether a character ends a line. -/
def isLineEnd (c : Char) : Bool :=
  let n := c.toNat
  (10 ≤ n && n ≤ 13) || (28 ≤ n && n ≤ 30) || n == 0x85 || n == 0x2028 || n == 0x2029

/-- The lines of a text that continue a line already begun; `begun` holds its
characters, the latest first. -/
def linesFrom (begun : List Char) : List Char → List (List Char)
  | [] => if begun.isEmpty then [] else [begun.reverse]
  | '\r' :: '\n' :: rest => begun.reverse :: linesFrom [] rest
  | c :: rest =>
      if isLineEnd c then begun.reverse :: linesFrom [] rest
      else linesFrom (c :: begun) rest

/-- The lines of a text, without their line ends.  A line end that closes the
text opens no further line. -/
def lines (text : List Char) : List (List Char) :=
  linesFrom [] text

/-- The lines of a text with their numbers, the first line having number 1. -/
def numberedLines (text : List Char) : List (Nat × List Char) :=
  ((lines text).zipIdx 1).map fun (line, number) => (number, line)

end LossyConsensus.Text
