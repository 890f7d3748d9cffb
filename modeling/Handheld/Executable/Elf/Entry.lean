import Handheld.Bytes

/-! # Entries — the tables of an ELF file

    An ELF file comes in two widths, for addresses of 32 and of 64 bits,
    and in two byte orders.  Its tables hold entries of fixed size and
    start at multiples of the size of an address:

    | entry      | size     | fields                                       |
    |------------|----------|----------------------------------------------|
    | segment    | 32 or 56 | none that matter here                        |
    | section    | 40 or 64 | name, type, flags, address, offset, size, …  |
    | symbol     | 16 or 24 | name, value, section                         |
    | relocation | 8 to 24  | address, symbol and type, addend             |
 -/

namespace Handheld.Elf

/-! ## Numbers -/

/-- How the numbers of a file are stored. -/
structure Form where
  wide : Bool
  littleEndian : Bool
deriving DecidableEq

namespace Form

/-- The number in the window of `width` bytes at `offset`. -/
def field (form : Form) (bytes : Bytes) (offset width : Nat) : Nat :=
  let window := Bytes.slice bytes offset width
  if form.littleEndian then Bytes.littleValue window else Bytes.value window

/-- One of two numbers, by the width of addresses. -/
def pick (form : Form) (narrow wide : Nat) : Nat :=
  if form.wide then wide else narrow

/-- The number of bytes of an address. -/
def addressSize (form : Form) : Nat := form.pick 4 8

/-- The size of the header of a file. -/
def headerSize (form : Form) : Nat := form.pick 52 64

/-- What the positions of tables with addresses are multiples of. -/
def alignment (form : Form) : Nat := form.addressSize

/-- The size of the entry for a segment. -/
def segmentEntrySize (form : Form) : Nat := form.pick 32 56

/-- The size of the entry for a section. -/
def sectionEntrySize (form : Form) : Nat := form.pick 40 64

/-- The size of the entry for a symbol. -/
def symbolEntrySize (form : Form) : Nat := form.pick 16 24

/-- The size of the entry for a relocation without or with an addend. -/
def relocationEntrySize (form : Form) (addends : Bool) : Nat :=
  if addends then form.pick 12 24 else form.pick 8 16

end Form

/-! ## Sections -/

/-- What a section holds, as far as it matters here. -/
inductive SectionType where
  | symbols
  | names
  | relocations (addends : Bool)
  | zeros
  | dynamicSymbols
  | symbolSections
  | other
deriving DecidableEq

namespace SectionType

/-- The type that a number stands for. -/
def ofNumber : Nat → SectionType
  | 2 => .symbols
  | 3 => .names
  | 4 => .relocations true
  | 8 => .zeros
  | 9 => .relocations false
  | 11 => .dynamicSymbols
  | 18 => .symbolSections
  | _ => .other

/-- Whether the section holds relocations. -/
def isRelocations : SectionType → Bool
  | .relocations _ => true
  | _ => false

end SectionType

/-- The entry for a section. -/
structure SectionEntry where
  nameOffset : Nat
  type : SectionType
  flags : Nat
  address : Nat
  offset : Nat
  size : Nat
  link : Nat
  info : Nat

namespace SectionEntry

/-- The entry in the given bytes. -/
def decode (form : Form) (raw : Bytes) : SectionEntry where
  nameOffset := form.field raw 0 4
  type := .ofNumber (form.field raw 4 4)
  flags := form.field raw 8 form.addressSize
  address := form.field raw (form.pick 12 16) form.addressSize
  offset := form.field raw (form.pick 16 24) form.addressSize
  size := form.field raw (form.pick 20 32) form.addressSize
  link := form.field raw (form.pick 24 40) 4
  info := form.field raw (form.pick 28 44) 4

/-- Whether the section holds instructions. -/
def isExecutable (entry : SectionEntry) : Bool :=
  entry.flags / 4 % 2 = 1

end SectionEntry

/-! ## Symbols -/

/-- The entry for a symbol. -/
structure SymbolEntry where
  nameOffset : Nat
  value : Nat
  sectionNumber : Nat

/-- The entry in the given bytes. -/
def SymbolEntry.decode (form : Form) (raw : Bytes) : SymbolEntry where
  nameOffset := form.field raw 0 4
  value := form.field raw (form.pick 4 8) form.addressSize
  sectionNumber := form.field raw (form.pick 14 6) 2

/-! ## Relocations -/

/-- The entry for a relocation. -/
structure RelocationEntry where
  address : Nat
  symbol : Nat
  type : Nat

/-- The entry in the given bytes. -/
def RelocationEntry.decode (form : Form) (raw : Bytes) : RelocationEntry :=
  let info := form.field raw form.addressSize form.addressSize
  let types := form.pick 0x100 0x1_0000_0000
  ⟨form.field raw 0 form.addressSize, info / types, info % types⟩

end Handheld.Elf
