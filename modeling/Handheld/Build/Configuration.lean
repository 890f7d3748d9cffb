import Handheld.Build.Error
import Handheld.Files.Path
import Handheld.Database.Header

/-! # Configurations — what the settings come to

    The settings decide the header of the database and the options for
    packing. -/

namespace Handheld.Settings

/-- The name of the database: if none is set, that of the output without
    its extension. -/
def databaseName (s : Settings) (output : String) : Name :=
  match s.value .name with
  | some name => name
  | none => Name.ofText ((Path.fileStem? output).getD "")

/-- The header of the database that is written to `output` now. -/
def header (s : Settings) (output : String) (now : Timestamp) : Header :=
  let type := (s.value .type).getD (s.value .product).databaseType
  let fresh := Header.fresh (s.databaseName output) type (s.value .creator) now
  { fresh with
    version := s.value .version
    modificationNumber := s.value .modificationNumber
    attributes := s.value .attributes }

/-- The options for packing. -/
def packOptions (s : Settings) : PackOptions :=
  let standard := PackOptions.standard (s.value .product)
  { product := s.value .product
    mainCode := (s.value .mainCode).getD standard.mainCode
    emitData := (s.value .emitData).getD standard.emitData
    stackSize := s.value .stackSize
    heapSize := s.value .heapSize
    extraCode := s.value .extraCode
    effort := s.value .compression
    forceRelocations := s.value .forceRelocations }

end Handheld.Settings
