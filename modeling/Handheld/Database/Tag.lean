import Handheld.Text.Escaped

/-! # Tags — four-byte codes of types and creators

    A tag such as `appl` or `code` is exactly four bytes, any bytes.  It is
    read from the UTF-8 bytes of a text and shown with escapes. -/

namespace Handheld

/-- A four-byte code. -/
structure Tag where
  b0 : UInt8
  b1 : UInt8
  b2 : UInt8
  b3 : UInt8
deriving DecidableEq

namespace Tag

/-- The bytes of a tag. -/
def bytes (t : Tag) : Bytes :=
  [t.b0, t.b1, t.b2, t.b3]

/-- The tag of four NUL bytes. -/
def zero : Tag := ⟨0, 0, 0, 0⟩

/-- The tag of four characters below U+0100. -/
def ofChars (a b c d : Char) : Tag :=
  ⟨a.toNat.toUInt8, b.toNat.toUInt8, c.toNat.toUInt8, d.toNat.toUInt8⟩

/-- The tag stored at a position. -/
def readAt (bytes : Bytes) (position : Nat) : Tag where
  b0 := Bytes.byteAt bytes position
  b1 := Bytes.byteAt bytes (position + 1)
  b2 := Bytes.byteAt bytes (position + 2)
  b3 := Bytes.byteAt bytes (position + 3)

/-- A tag that has not four bytes but `length`. -/
structure WrongLength where
  length : Nat
deriving DecidableEq

/-- The wording of the error. -/
def WrongLength.message (e : WrongLength) : String :=
  s!"a tag must be exactly 4 bytes long, not {e.length}"

/-- The tag of these bytes, if they are four. -/
def ofBytes : Bytes → Except WrongLength Tag
  | [a, b, c, d] => .ok ⟨a, b, c, d⟩
  | other => .error ⟨other.length⟩

/-- The tag of the UTF-8 bytes of a text, if they are four. -/
def ofText (text : String) : Except WrongLength Tag :=
  ofBytes (Bytes.ofText text)

/-- A tag as it is shown. -/
def text (t : Tag) : String :=
  Escaped.encode t.bytes

theorem length_bytes (t : Tag) : t.bytes.length = 4 := rfl

theorem ofBytes_bytes (t : Tag) : ofBytes t.bytes = .ok t := rfl

theorem bytes_injective {t u : Tag} (h : t.bytes = u.bytes) : t = u := by
  have e : ofBytes t.bytes = ofBytes u.bytes := by rw [h]
  rw [ofBytes_bytes, ofBytes_bytes] at e
  exact Except.ok.inj e

end Tag

end Handheld
