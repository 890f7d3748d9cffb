import Handheld.Executable.Listing

/-! # The listing of a file — an ELF file as a reader lists it

    Sections and symbols are listed with their numbers in the tables of the
    file, without the first entries, which stand for none. -/

namespace Handheld.Elf

/-- A relocation as it is listed.  Symbol 0 is none. -/
def RelocationEntry.listed (a : Architecture) (entry : RelocationEntry) :
    ListedRelocation where
  address := entry.address
  isAbsolute := entry.type = absoluteType a
  bits := if entry.type = absoluteType a then 32 else 0
  type? := some entry.type
  target := if entry.symbol = 0 then .other else .symbol entry.symbol

/-- A section as it is listed. -/
def SectionEntry.listed (f : File) (a : Architecture) (number : Nat)
    (entry : SectionEntry) : ListedSection where
  number := number
  name? := f.sectionNames.get? entry.nameOffset
  isZeros := entry.type = .zeros
  contents? := window? f.bytes entry.offset entry.size
  address := entry.address
  size := entry.size
  flags? := some entry.flags
  relocations := ((chain f number).flatMap (relocationEntries f)).map
    (RelocationEntry.listed a)

/-- A symbol as it is listed. -/
def SymbolEntry.listed (table : SymbolTable) (number : Nat)
    (entry : SymbolEntry) : ListedSymbol where
  number := number
  name? := table.names.get? entry.nameOffset
  address := entry.value
  container? := sectionNumberOf? table number entry

/-- The sections as they are listed; the first of these entries has the given
    number. -/
def listedFrom (f : File) (a : Architecture) (number : Nat)
    (entries : List SectionEntry) : List ListedSection :=
  (entries.zipIdx number).map fun (entry, n) => entry.listed f a n

/-- The symbols as they are listed. -/
def listedSymbolsFrom (table : SymbolTable) (number : Nat)
    (entries : List SymbolEntry) : List ListedSymbol :=
  (entries.zipIdx number).map fun (entry, n) => entry.listed table n

/-- What is listed of a file: its tables without their first entries. -/
def listing (e : Elf) : Listing where
  sections := listedFrom e.file e.architecture 1 e.file.sections.tail
  symbols := listedSymbolsFrom e.file.symbols 1 e.file.symbols.entries.tail

end Handheld.Elf
