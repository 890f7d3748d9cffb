import Handheld.Files.Path
import Handheld.Database.Key

/-! # Raw names — files that hold one resource

    A file with the name `tFRM03e8.bin` or `Tbmp1000.grc` holds the data of
    one resource: four bytes of the name are the type, four hexadecimal
    digits the number. -/

namespace Handheld.RawName

/-- The extensions of files that hold one resource. -/
def extensions : List String := ["bin", "grc"]

/-- Whether a text is such an extension, in either case. -/
def isExtension (text : List Char) : Bool :=
  extensions.contains (String.ofList (text.map Char.toLower))

/-- The key that a name without its extension tells. -/
def stemKey? (stem : List Char) : Option ResourceKey :=
  let bytes := Bytes.ofText (String.ofList stem)
  let digits := (bytes.drop 4).map fun b => Char.ofNat b.toNat
  if bytes.length = 8 then
    (Numeral.digits? 16 digits).map fun id =>
      ⟨Tag.readAt bytes 0, id.toUInt16⟩
  else none

/-- The key that the name of a file tells. -/
def key? (name : String) : Option ResourceKey :=
  match Parts.splitLast? '.' name.toList with
  | some (stem, ext) => if isExtension ext then stemKey? stem else none
  | none => none

end Handheld.RawName
