import Handheld.Text.Numeral

/-! # Terminal text — a text that gives a terminal no orders

    Characters with which a text could steer the terminal that it is
    printed on are spelled out by their numbers.  All others, line breaks
    among them, stay as they are. -/

namespace Handheld.Terminal

/-- Bell, backspace, form feed, escape and delete. -/
def controls : List Nat := [0x07, 0x08, 0x0C, 0x1B, 0x7F]

/-- How one character is printed. -/
def encodeChar (c : Char) : List Char :=
  let n := c.toNat
  if n ∈ controls then
    '\\' :: 'x' :: (Numeral.padLeft '0' 2 (Numeral.hex n)).toList
  else if 0x80 ≤ n ∧ n ≤ 0x9F then
    '\\' :: 'u' :: '\x7b' :: (Numeral.hex n).toList ++ ['\x7d']
  else [c]

/-- A text as it is printed. -/
def encode (text : String) : String :=
  String.ofList (text.toList.flatMap encodeChar)

end Handheld.Terminal
