import Handheld.Bytes
import Handheld.Text.Numeral

/-! # Escaped bytes — tags and names on one printable line

    Tags and names may hold any bytes.  They are shown in printable ASCII:
    NUL, tab, line feed, carriage return and the backslash have an escape
    of two characters, every other byte that does not print is `\x` and
    two hexadecimal digits. -/

namespace Handheld.Escaped

/-- How one byte is shown. -/
def encodeByte (b : UInt8) : List Char :=
  if b = 0x00 then ['\\', '0']
  else if b = 0x09 then ['\\', 't']
  else if b = 0x0A then ['\\', 'n']
  else if b = 0x0D then ['\\', 'r']
  else if b = 0x5C then ['\\', '\\']
  else if 0x20 ≤ b ∧ b ≤ 0x7E then [Char.ofNat b.toNat]
  else '\\' :: 'x' :: (Numeral.upperHex 2 b.toNat).toList

/-- How a byte string is shown. -/
def encode (bytes : Bytes) : String :=
  String.ofList (bytes.flatMap encodeByte)

end Handheld.Escaped
