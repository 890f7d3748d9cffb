import Handheld.Files.Error
import Handheld.Text.Numeral

/-! # Format errors — why bytes are no database -/

namespace Handheld

/-- Why a database cannot be read or written. -/
inductive FormatError where
  | file (cause : FileError)
  /-- The image has `available` bytes where it needs `needed`. -/
  | truncated (needed available : Nat)
  /-- An entry is said to start at `offset`, outside the bounds. -/
  | corrupt (offset lower upper : Nat)
  /-- There is a further directory. -/
  | furtherDirectory (position : UInt32)
  /-- The entries are resources where records were expected, or the other
      way round. -/
  | wrongKind (expectedResources : Bool)
  /-- The directory names a key twice. -/
  | duplicateKey (key : String)
  | tooLarge
deriving DecidableEq

namespace FormatError

/-- The wording of the error. -/
def message : FormatError → String
  | .file cause => s!"I/O error: {cause.message}"
  | .truncated needed available =>
      s!"file truncated: need at least {needed} bytes, have {available}"
  | .corrupt offset lower upper =>
      s!"corrupt directory: entry offset {offset} not within {lower}..={upper} (file truncated or directory scrambled)"
  | .furtherDirectory position =>
      s!"unsupported multi-directory database (next directory at 0x{Numeral.upperHex 8 position.toNat})"
  | .wrongKind true => "expected a resource database, found a record database"
  | .wrongKind false => "expected a record database, found a resource database"
  | .duplicateKey key => s!"directory lists {key} more than once"
  | .tooLarge => "database too large for 32-bit offsets"

/-- The wording of the error behind the error. -/
def source? : FormatError → Option String
  | .file cause => some cause.message
  | _ => none

end FormatError

end Handheld
