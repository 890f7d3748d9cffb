import Handheld.Executable.Elf.Entry
import Handheld.Executable.Error

/-! # Files — an ELF file with its tables

    `File.ofBytes` checks that the header and the tables of sections and
    symbols are sound.  The sections of a file are numbered in the order of
    their table; number 0 stands for no section. -/

namespace Handheld.Elf

/-! ## Parts of the file -/

/-- The window of a file, if it lies in the file. -/
def window? (file : Bytes) (offset size : Nat) : Option Bytes :=
  let rest := file.drop offset
  if offset ≤ file.length then
    let window := rest.take size
    if window.length = size then some window else none
  else none

/-- The bytes of a table, if it lies in the file and starts at a multiple of
    `alignment`. -/
def tableBytes? (file : Bytes) (alignment offset size : Nat) : Option Bytes :=
  if offset % alignment = 0 then window? file offset size else none

/-- What a section holds; zeros take no room in the file. -/
def SectionEntry.contents? (file : Bytes) (entry : SectionEntry) :
    Option Bytes :=
  if entry.type = .zeros then some []
  else window? file entry.offset entry.size

/-- The entries of a table that is the contents of a section. -/
def SectionEntry.table? (file : Bytes) (alignment size : Nat)
    (entry : SectionEntry) : Option (List Bytes) :=
  match tableBytes? file alignment entry.offset entry.size with
  | some contents =>
      if contents.length % size = 0 then some (Bytes.chunks size contents)
      else none
  | none => none

/-- A table of names: texts that end in NUL.  One that is not in the file
    has no names at all. -/
structure NameTable where
  contents? : Option Bytes

namespace NameTable

/-- The table without names. -/
def empty : NameTable := ⟨none⟩

/-- The table that is the contents of a section.  Positions have 64
    bits. -/
def ofSection (file : Bytes) (entry : SectionEntry) :
    Except ObjectFault NameTable :=
  if entry.type = .zeros then .ok empty
  else if entry.offset + entry.size < 0x1_0000_0000_0000_0000 then
    .ok ⟨window? file entry.offset entry.size⟩
  else .error .badNameTable

/-- The text at a position of the table. -/
def get? (table : NameTable) (offset : Nat) : Option String :=
  match table.contents? with
  | none => none
  | some contents =>
      let rest := contents.drop offset
      let name := rest.takeWhile (· ≠ 0)
      if name.length < rest.length then Bytes.toText? name else none

end NameTable

/-! ## The table of sections -/

/-- The bytes every ELF file begins with. -/
def magic : Bytes := [0x7F, 0x45, 0x4C, 0x46]

/-- The form that the first sixteen bytes of a file tell. -/
def formOf (file : Bytes) : Except ObjectFault Form :=
  let ident := file.take 16
  if ident.length = 16 ∧ magic <+: ident then
    match Bytes.byteAt ident 4, Bytes.byteAt ident 5, Bytes.byteAt ident 6 with
    | 1, 1, 1 => .ok ⟨false, true⟩
    | 1, 2, 1 => .ok ⟨false, false⟩
    | 2, 1, 1 => .ok ⟨true, true⟩
    | 2, 2, 1 => .ok ⟨true, false⟩
    | _, _, _ => .error .badHeader
  else .error .unknownFormat

/-- The table of sections as the header describes it. -/
structure SectionTable where
  position : Nat
  entrySize : Nat
  count : Nat
  nameSection : Nat

/-- The description of the table in a header. -/
def SectionTable.ofHeader (form : Form) (header : Bytes) : SectionTable where
  position := form.field header (form.pick 32 40) form.addressSize
  entrySize := form.field header (form.pick 46 58) 2
  count := form.field header (form.pick 48 60) 2
  nameSection := form.field header (form.pick 50 62) 2

/-- The entry for section 0, which has numbers that do not fit into the
    header. -/
def sectionZero? (form : Form) (file : Bytes) (table : SectionTable) :
    Option SectionEntry :=
  let size := form.sectionEntrySize
  if table.position = 0 ∨ table.entrySize ≠ size then none
  else (tableBytes? file form.alignment table.position size).map
    (SectionEntry.decode form)

/-- The entries for the sections, number 0 first.  A count of zero means
    that the entry for section 0 has the count. -/
def sectionEntries (form : Form) (file : Bytes) (table : SectionTable) :
    Except ObjectFault (List SectionEntry) :=
  let size := form.sectionEntrySize
  if table.position = 0 then .ok []
  else if table.entrySize ≠ size then .error .badSectionTable
  else
    let count := if table.count ≠ 0 then some table.count
      else (sectionZero? form file table).map (·.size)
    match count.bind fun count =>
        tableBytes? file form.alignment table.position (count * size) with
    | some contents =>
        .ok ((Bytes.chunks size contents).map (SectionEntry.decode form))
    | none => .error .badSectionTable

/-- The table of the names of sections.  A number that does not fit is in
    the entry for section 0. -/
def sectionNames (file : Bytes) (table : SectionTable)
    (entries : List SectionEntry) : Except ObjectFault NameTable :=
  match entries with
  | [] => .ok .empty
  | first :: _ =>
      let number :=
        if table.nameSection = 0xFFFF then first.link else table.nameSection
      match entries[number]? with
      | some entry =>
          if number = 0 then .error .badNameTable
          else NameTable.ofSection file entry
      | none => .error .badNameTable

/-! ## The table of segments -/

/-- Whether the table of segments is sound; nothing else is asked of it.  A
    count of 0xFFFF means that the entry for section 0 has the count. -/
def segmentsSound (form : Form) (file header : Bytes) (table : SectionTable) :
    Bool :=
  let position := form.field header (form.pick 28 32) form.addressSize
  let entrySize := form.field header (form.pick 42 54) 2
  let count := form.field header (form.pick 44 56) 2
  if position = 0 then true
  else
    match if count ≠ 0xFFFF then some count
      else (sectionZero? form file table).map (·.info) with
    | none => false
    | some 0 => true
    | some count =>
        entrySize = form.segmentEntrySize
          && (tableBytes? file form.alignment position
            (count * entrySize)).isSome

/-! ## Tables of symbols -/

/-- A table of symbols and the section it is, which is 0 if there is none.
    Where the number of a symbol's section does not fit, it is in
    `sections`. -/
structure SymbolTable where
  sectionNumber : Nat
  entries : List SymbolEntry
  names : NameTable
  sections : List Nat

/-- The table of no symbols. -/
def SymbolTable.empty : SymbolTable := ⟨0, [], .empty, []⟩

/-- The names that a table of symbols refers to. -/
def symbolNames (file : Bytes) (entries : List SectionEntry) (link : Nat) :
    Except ObjectFault NameTable :=
  if link = 0 then .ok .empty
  else match entries[link]? with
    | some entry =>
        if entry.type = .names then NameTable.ofSection file entry
        else .error .badSymbolTable
    | none => .error .badSymbolTable

/-- The numbers of sections that go with the table of symbols in section
    `number`; the last such section counts. -/
def symbolSections (form : Form) (file : Bytes) (number : Nat)
    (found : List Nat) : List SectionEntry → Except ObjectFault (List Nat)
  | [] => .ok found
  | entry :: rest =>
      if entry.type = .symbolSections ∧ entry.link = number then
        match entry.table? file 4 4 with
        | some words =>
            symbolSections form file number
              (words.map fun raw => form.field raw 0 4) rest
        | none => .error .badSymbolTable
      else symbolSections form file number found rest

/-- The first table of symbols of a type. -/
def symbolTable (form : Form) (file : Bytes) (entries : List SectionEntry)
    (type : SectionType) : Except ObjectFault SymbolTable :=
  match entries.findIdx? (·.type = type) with
  | none => .ok .empty
  | some number =>
      match entries[number]?.bind fun entry =>
          (entry.table? file form.alignment form.symbolEntrySize).map
            (entry, ·) with
      | none => .error .badSymbolTable
      | some (entry, raws) =>
          match symbolNames file entries entry.link,
              symbolSections form file number [] entries with
          | .ok names, .ok sections =>
              .ok ⟨number, raws.map (SymbolEntry.decode form), names, sections⟩
          | .error e, _ => .error e
          | _, .error e => .error e

/-! ## Sections of relocations -/

/-- Whether a section holds relocations for symbols of the table in section
    `symbols`, and is told which section they belong to. -/
def SectionEntry.countsFor (symbols : Nat) (entry : SectionEntry) : Bool :=
  entry.type.isRelocations && entry.link = symbols && entry.info ≠ 0

/-- Whether the relocations that count belong to sections that exist and
    hold no relocations themselves. -/
def relocationsSound (entries : List SectionEntry) (symbols : Nat) : Bool :=
  entries.all fun entry =>
    !entry.countsFor symbols
      || match entries[entry.info]? with
        | some target => !target.type.isRelocations
        | none => false

/-! ## The whole file -/

/-- An ELF file whose tables are sound. -/
structure File where
  bytes : Bytes
  form : Form
  type : Nat
  machine : Nat
  entry : Nat
  sections : List SectionEntry
  sectionNames : NameTable
  symbols : SymbolTable

/-- Reads the tables of a file. -/
def File.ofBytes (bytes : Bytes) : Except ObjectFault File := do
  let form ← formOf bytes
  let header := bytes.take form.headerSize
  if header.length < form.headerSize then throw .badHeader
  let table := SectionTable.ofHeader form header
  if !segmentsSound form bytes header table then throw .badSegmentTable
  let entries ← sectionEntries form bytes table
  let names ← Elf.sectionNames bytes table entries
  let symbols ← symbolTable form bytes entries .symbols
  let _ ← symbolTable form bytes entries .dynamicSymbols
  if relocationsSound entries symbols.sectionNumber then
    return {
      bytes := bytes
      form := form
      type := form.field header 16 2
      machine := form.field header 18 2
      entry := form.field header 24 form.addressSize
      sections := entries
      sectionNames := names
      symbols := symbols }
  else throw .badRelocationTable

end Handheld.Elf
