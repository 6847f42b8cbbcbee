/-
# Quoted text

A text between quotes, on one line and in printable characters.  The quote is
the single one, unless the text holds a single quote and no double one.  The
quote itself and the backslash are escaped by a backslash, line feeds, carriage
returns and tabs by their letters, and other characters without a graphic by
their code in two, four or eight hexadecimal digits.
-/

import LossyConsensus.Text.Letter
import LossyConsensus.Text.PrintableTable

namespace LossyConsensus.Text

/-- Whether a character has a graphic of its own. -/
def isPrintable (c : Char) : Bool :=
  let n := c.toNat
  if n < 128 then 32 ≤ n && n < 127 else !inRanges unprintableRanges n

/-- A hexadecimal numeral of exactly `width` small digits. -/
def hexDigits (width n : Nat) : List Char :=
  let digits := Nat.toDigits 16 n
  List.replicate (width - digits.length) '0' ++ digits

/-- A character as it stands between quotes `quote`. -/
def escapeChar (quote c : Char) : List Char :=
  let n := c.toNat
  if c == quote || c == '\\' then ['\\', c]
  else if c == '\n' then ['\\', 'n']
  else if c == '\r' then ['\\', 'r']
  else if c == '\t' then ['\\', 't']
  else if isPrintable c then [c]
  else if n < 0x100 then '\\' :: 'x' :: hexDigits 2 n
  else if n < 0x10000 then '\\' :: 'u' :: hexDigits 4 n
  else '\\' :: 'U' :: hexDigits 8 n

/-- The quote that a text is written with. -/
def quoteFor (text : List Char) : Char :=
  if text.contains '\'' && !text.contains '"' then '"' else '\''

/-- A text between quotes. -/
def quoted (text : List Char) : List Char :=
  let quote := quoteFor text
  quote :: text.flatMap (escapeChar quote) ++ [quote]

/-- A string between quotes. -/
def quote (text : String) : String :=
  String.ofList (quoted text.toList)

end LossyConsensus.Text
