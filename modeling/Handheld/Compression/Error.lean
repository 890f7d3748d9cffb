import Handheld.Text.Numeral

/-! # Causes for which compressed data is refused -/

namespace Handheld.Compression

/-- What is wrong with the framing of a `data` resource. -/
inductive FramingFault where
  | pointerMissing
  | pointerOutOfRange
  | passesEndElsewhere
deriving DecidableEq

/-- The wording of a framing fault. -/
def FramingFault.message : FramingFault → String
  | .pointerMissing => "missing trailer pointer"
  | .pointerOutOfRange => "trailer pointer out of range"
  | .passesEndElsewhere => "passes do not end at the trailer"

/-- Why data cannot be compressed or expanded. -/
inductive Error where
  /-- The data ends at `position`, in the middle of something. -/
  | truncated (position : Nat)
  /-- The byte at `position` begins no instruction. -/
  | unknownTag (tag : UInt8) (position : Nat)
  /-- Writing `length` bytes at `position` leaves an output of `size`
      bytes. -/
  | outputOverrun (position length size : Nat)
  /-- The `data` resource is not framed properly. -/
  | badFraming (fault : FramingFault)
  /-- An image of `size` bytes has positions beyond 32 bits. -/
  | tooLarge (size : Nat)
deriving DecidableEq

/-- The wording of an error. -/
def Error.message : Error → String
  | .truncated position =>
      s!"compressed data ends unexpectedly at {position}"
  | .unknownTag tag position =>
      s!"invalid instruction tag 0x{Numeral.upperHex 2 tag.toNat} at {position}"
  | .outputOverrun position length size =>
      s!"writing {length} bytes at {position} overruns the {size}-byte output"
  | .badFraming fault =>
      s!"invalid data resource framing: {fault.message}"
  | .tooLarge size =>
      s!"{size} bytes of data are too many to address with 32-bit offsets"

end Handheld.Compression
