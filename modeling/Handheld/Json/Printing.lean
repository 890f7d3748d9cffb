import Handheld.Json.Basic
import Handheld.Text.Numeral

/-! # Printing — trees as indented JSON texts

    Every member and element stands on a line of its own, two blanks further
    in than the array or object it belongs to.  Empty arrays and objects are
    written without a line break.  In texts, only the quote, the backslash
    and control characters are escaped. -/

namespace Handheld.Json

/-- How one character of a text is written. -/
def escapeChar (c : Char) : List Char :=
  if c = '"' then ['\\', '"']
  else if c = '\\' then ['\\', '\\']
  else if c = '\x08' then ['\\', 'b']
  else if c = '\x0c' then ['\\', 'f']
  else if c = '\n' then ['\\', 'n']
  else if c = '\r' then ['\\', 'r']
  else if c = '\t' then ['\\', 't']
  else if c.toNat < 0x20 then
    '\\' :: 'u' :: (Numeral.padLeft '0' 4 (Numeral.hex c.toNat)).toList
  else [c]

/-- How a text is written. -/
def quote (t : String) : String :=
  String.ofList ('"' :: t.toList.flatMap escapeChar ++ ['"'])

/-- A line break and the indentation of a level. -/
def newline (level : Nat) : String :=
  "\n" ++ String.ofList (List.replicate (2 * level) ' ')

/-- How a number is written that is a natural one. -/
def numberText (n : Number) : String :=
  (if n.negative then "-" else "") ++ toString n.coefficient

mutual

/-- The pieces of a value as it is written at a level of indentation. -/
def pieces (level : Nat) : Json → List String
  | .null => ["null"]
  | .boolean b => [if b then "true" else "false"]
  | .number n => [numberText n]
  | .text t => [quote (t.getD "")]
  | .array [] => ["[]"]
  | .array (element :: rest) =>
      "[" :: newline (level + 1) :: (pieces (level + 1) element
        ++ (elementPieces (level + 1) rest ++ [newline level, "]"]))
  | .object [] => ["\x7b\x7d"]
  | .object ((key, value) :: rest) =>
      "\x7b" :: newline (level + 1) :: quote (key.getD "") :: ": "
        :: (pieces (level + 1) value
          ++ (memberPieces (level + 1) rest ++ [newline level, "\x7d"]))

/-- The pieces of further elements of an array. -/
def elementPieces (level : Nat) : List Json → List String
  | [] => []
  | element :: rest =>
      "," :: newline level :: (pieces level element
        ++ elementPieces level rest)

/-- The pieces of further members of an object. -/
def memberPieces (level : Nat) : List (Option String × Json) → List String
  | [] => []
  | (key, value) :: rest =>
      "," :: newline level :: quote (key.getD "") :: ": "
        :: (pieces level value ++ memberPieces level rest)

end

/-- A value as it is written. -/
def print (value : Json) : String :=
  String.join (pieces 0 value)

end Handheld.Json
