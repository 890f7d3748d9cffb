import Handheld.Text.Numeral
import Handheld.Text.Unprintable

/-! # Quoted text — a text as it is cited in a message

    A cited text stands in double quotes.  The quote, the backslash and
    four control characters have an escape of two characters; a character
    that does not show as itself is given by its number, and every other
    one stands for itself. -/

namespace Handheld.Quoted

/-- How one character is cited. -/
def encodeChar (c : Char) : List Char :=
  if c = '\x00' then ['\\', '0']
  else if c = '\t' then ['\\', 't']
  else if c = '\n' then ['\\', 'n']
  else if c = '\r' then ['\\', 'r']
  else if c = '"' then ['\\', '"']
  else if c = '\\' then ['\\', '\\']
  else if Unprintable.contains c then
    ['\\', 'u', '\x7b'] ++ (Numeral.hex c.toNat).toList ++ ['\x7d']
  else [c]

/-- How a text is cited. -/
def encode (text : String) : String :=
  String.ofList ('"' :: text.toList.flatMap encodeChar ++ ['"'])

end Handheld.Quoted
