/-
# JSON texts

Values of the JSON data format and their written form with one entry a line.
Reals are written by their shortest decimal; infinities and no number, which
the format lacks, are written `Infinity`, `-Infinity` and `NaN`.  Characters
beyond ASCII are escaped.
-/

import LossyConsensus.Decimal.Shortest
import LossyConsensus.Text.Quoted

namespace LossyConsensus.Text

/-- A value of the data format.  The members of an object keep their order. -/
inductive Json
  | null
  | bool (value : Bool)
  | integer (value : Int)
  | real (value : Float)
  | text (value : String)
  | list (items : List Json)
  | object (members : List (String × Json))
  deriving Inhabited

namespace Json

/-- A code unit of an escaped character. -/
def unit (n : Nat) : List Char :=
  '\\' :: 'u' :: hexDigits 4 n

/-- A character as it stands in a written string. -/
def escape (c : Char) : List Char :=
  let n := c.toNat
  if c == '"' || c == '\\' then ['\\', c]
  else if c == '\n' then ['\\', 'n']
  else if c == '\r' then ['\\', 'r']
  else if c == '\t' then ['\\', 't']
  else if n == 8 then ['\\', 'b']
  else if n == 12 then ['\\', 'f']
  else if 32 ≤ n && n < 127 then [c]
  else if n < 0x10000 then unit n
  else unit (0xd800 + (n - 0x10000) / 0x400) ++ unit (0xdc00 + (n - 0x10000) % 0x400)

/-- A written string. -/
def string (text : String) : String :=
  "\"" ++ String.ofList (text.toList.flatMap escape) ++ "\""

/-- A written real. -/
def number (value : Float) : String :=
  if value.isNaN then "NaN"
  else if value.isInf then (if value < 0.0 then "-Infinity" else "Infinity")
  else Decimal.realText value

/-- The start of a line at a depth. -/
def newLine (depth : Nat) : String :=
  String.ofList ('\n' :: List.replicate (2 * depth) ' ')

/-- Entries between brackets, one a line. -/
def block (opening closing : String) (depth : Nat) (entries : List String) : String :=
  if entries.isEmpty then opening ++ closing
  else opening ++ newLine (depth + 1) ++ ("," ++ newLine (depth + 1)).intercalate entries ++
    newLine depth ++ closing

mutual

/-- The written form of a value at a depth. -/
def render (depth : Nat) : Json → String
  | .null => "null"
  | .bool value => if value then "true" else "false"
  | .integer value => toString value
  | .real value => number value
  | .text value => string value
  | .list items => block "[" "]" depth (renderItems (depth + 1) items)
  | .object members => block "\x7b" "\x7d" depth (renderMembers (depth + 1) members)

/-- The written forms of the items of a list. -/
def renderItems (depth : Nat) : List Json → List String
  | [] => []
  | item :: rest => item.render depth :: renderItems depth rest

/-- The written forms of the members of an object. -/
def renderMembers (depth : Nat) : List (String × Json) → List String
  | [] => []
  | (name, value) :: rest =>
      (string name ++ ": " ++ value.render depth) :: renderMembers depth rest

end

end Json

end LossyConsensus.Text
