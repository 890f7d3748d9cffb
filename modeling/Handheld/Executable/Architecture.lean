import Handheld.Bytes

/-! # Architectures — the two processor families -/

namespace Handheld

/-- A family of processors that run the handheld OS. -/
inductive Architecture where
  /-- The 68000 family, big-endian. -/
  | m68k
  /-- The ARM family, little-endian. -/
  | arm
deriving DecidableEq

namespace Architecture

/-- The name of an architecture. -/
def text : Architecture → String
  | .m68k => "m68k"
  | .arm => "ARM"

/-- Whether the least significant byte of a number comes first. -/
def isLittleEndian : Architecture → Bool
  | .m68k => false
  | .arm => true

/-- The number that these bytes are in the order of the architecture. -/
def value (a : Architecture) (bytes : Bytes) : Nat :=
  if a.isLittleEndian then Bytes.littleValue bytes else Bytes.value bytes

/-- The lowest `width` bytes of a number, in the order of the
    architecture. -/
def encode (a : Architecture) (width n : Nat) : Bytes :=
  if a.isLittleEndian then Bytes.littleEndian width n
  else Bytes.bigEndian width n

theorem length_encode (a : Architecture) (width n : Nat) :
    (a.encode width n).length = width := by
  cases a <;> simp [encode, isLittleEndian, Bytes.littleEndian,
    Bytes.length_bigEndian]

/-- Reading back what was written keeps the lowest `width` bytes. -/
theorem value_encode (a : Architecture) (width n : Nat) :
    a.value (a.encode width n) = n % Nat.pow 256 width := by
  cases a <;> simp [value, encode, isLittleEndian, Bytes.littleEndian,
    Bytes.littleValue, Bytes.value_bigEndian]

end Architecture

end Handheld
