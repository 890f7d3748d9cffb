import Handheld.Compression.Error
import Handheld.Executable.Architecture
import Handheld.Executable.Error
import Handheld.Text.Numeral

/-! # Packing errors — why an executable cannot be packed -/

namespace Handheld

/-- Where the packer gets stuck, and returns neither resources nor an error of
    its own. -/
inductive Standstill where
  /-- There are more chains than can be counted in sixteen bits. -/
  | chainOverflow
  /-- The end of `.bss` in the image is no number of 64 bits. -/
  | sizeOverflow
  /-- All numbers that a further code resource could have are taken, and a
      search that goes on until it finds a free one has no end.  Sections that
      have chains never run out of numbers, so it does not come to this. -/
  | endlessSearch
deriving DecidableEq

/-- What can be said of a standstill.  The packer itself says nothing: it is
    stopped, and these are no errors of its own. -/
def Standstill.message : Standstill → String
  | .chainOverflow => "too many chains to count"
  | .sizeOverflow => "data image too long to address"
  | .endlessSearch => "no number left for a further code resource"

/-- Why an executable cannot be packed. -/
inductive PackError where
  | object (cause : ObjectError)
  | textMissing
  /-- The entry point is not in the `size` bytes of code at `address`. -/
  | entryOutsideText (entry address size : Nat)
  | entryMisaligned (offset : Nat) (architecture : Architecture)
  | entryOutOfRange (offset : Nat) (architecture : Architecture)
  /-- The section that names a standalone code resource has `length`
      bytes. -/
  | badDisposition (length : Nat)
  | compression (cause : Compression.Error)
  /-- There is no answer. -/
  | standstill (cause : Standstill)
deriving DecidableEq

namespace PackError

/-- The wording of the error. -/
def message : PackError → String
  | .object cause => cause.message
  | .textMissing => "executable has no .text section"
  | .entryOutsideText entry address size =>
      s!"entry point {Numeral.address entry} lies outside .text ({Numeral.address address}, {size} bytes)"
  | .entryMisaligned offset architecture =>
      s!"entry point offset {Numeral.address offset} is misaligned for {architecture.text}"
  | .entryOutOfRange offset architecture =>
      s!"entry point offset {Numeral.address offset} is out of {architecture.text} branch range"
  | .badDisposition length =>
      s!".disposn section must hold a type and an id, not {length} bytes"
  | .compression cause => s!"data compression failed: {cause.message}"
  | .standstill cause => cause.message

/-- The wording of the error behind the error. -/
def source? : PackError → Option String
  | .object cause => some cause.message
  | .compression cause => some cause.message
  | _ => none

end PackError

end Handheld
