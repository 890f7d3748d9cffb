import Handheld.Build.RawName
import Handheld.Database.Image
import Handheld.Files.Basic
import Handheld.Packing.Basic

/-! # Input files — the resources in a file

    A file that is named for a resource holds its data.  Any other file is
    an ELF executable, which is packed, or else the image of a database of
    resources. -/

namespace Handheld

/-- Why a file supplies no resources. -/
inductive InputError where
  | file (cause : FileError)
  | format (cause : FormatError)
  | object (cause : ObjectError)
  | pack (cause : PackError)
  | holdsRecords
deriving DecidableEq

namespace InputError

/-- The wording of the error. -/
def message : InputError → String
  | .file cause => s!"I/O error: {cause.message}"
  | .format cause => cause.message
  | .object cause => cause.message
  | .pack cause => cause.message
  | .holdsRecords => "record databases carry no resources"

/-- The wording of the error behind the error. -/
def source? : InputError → Option String
  | .file cause => some cause.message
  | .format cause => some cause.message
  | .object cause => some cause.message
  | .pack cause => some cause.message
  | .holdsRecords => none

end InputError

namespace Input

/-- The resource in a file that is named for it. -/
def rawResources (path : String) (contents : Bytes) (key : ResourceKey) :
    Run InputError (List Resource) := do
  Run.tell
    [.debug s!"{path}: raw resource {key.text} ({contents.length} bytes)"]
  return [(key, contents)]

/-- The resources that an executable is packed into. -/
def packedResources (options : PackOptions) (path : String)
    (contents : Bytes) : Run InputError (List Resource) := do
  let elf ← Run.ofExcept ((Elf.ofBytes contents).mapError .object)
  Run.tell elf.events
  let packed ← (packElf elf options path).mapError .pack
  Run.tell
    [.note .info s!"{path}: packed into {packed.size} resources"]
  return packed.toList

/-- The resources of a database. -/
def databaseResources (path : String) (contents : Bytes) :
    Run InputError (List Resource) := do
  Run.tell (Image.parseAnyEvents contents)
  match ← Run.ofExcept ((Image.parseAny contents).mapError .format) with
  | .resource database =>
      Run.tell
        [.debug s!"{path}: resource database with {database.size} resources"]
      return database.toList
  | .record _ => throw .holdsRecords

/-- The resources in the contents of a file. -/
def resources (options : PackOptions) (path : String) (contents : Bytes) :
    Run InputError (List Resource) :=
  match (Path.fileName? path).bind RawName.key? with
  | some key => rawResources path contents key
  | none =>
      if Elf.magic <+: contents then packedResources options path contents
      else databaseResources path contents

/-- The resources in the file that a path leads to. -/
def load (files : Files) (options : PackOptions) (path : String) :
    Run InputError (List Resource) := do
  let contents ← Run.ofExcept ((files.read path).mapError .file)
  resources options path contents

end Input

end Handheld
