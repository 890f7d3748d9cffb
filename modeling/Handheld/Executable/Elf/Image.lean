import Handheld.Executable.Basic
import Handheld.Executable.Elf.File
import Handheld.Journal
import Handheld.Text.Numeral

/-! # Images — the executable that an ELF file holds

    The sections of an executable are those of the file that have a name,
    and its symbols are those of the file without the first.  Everything
    that the file refers to by number is found again by the position in
    these lists:

    • `NamedSection.all` lists the sections with their numbers in the file,
      and `positionOf?` finds the position that belongs to a number;
    • `chain` lists the sections of relocations that belong to a section;
    • `File.executable` puts the executable together. -/

namespace Handheld.Elf

/-! ## Sections -/

/-- A section with a name, and its number in the file. -/
structure NamedSection where
  number : Nat
  name : String
  entry : SectionEntry

namespace NamedSection

/-- The sections with a name among these, the first of which has the given
    number. -/
def allFrom (names : NameTable) (number : Nat) :
    List SectionEntry → Except ObjectFault (List NamedSection)
  | [] => .ok []
  | entry :: rest =>
      match names.get? entry.nameOffset with
      | none => .error .badSectionName
      | some name =>
          match allFrom names (number + 1) rest with
          | .error e => .error e
          | .ok others =>
              if name = "" then .ok others
              else .ok (⟨number, name, entry⟩ :: others)

/-- The sections of a file that have a name.  Section 0 is none. -/
def all (f : File) : Except ObjectFault (List NamedSection) :=
  allFrom f.sectionNames 1 f.sections.tail

/-- The position of the section with a number. -/
def positionOf? (named : List NamedSection) (number : Nat) : Option Nat :=
  named.findIdx? (·.number = number)

/-- A section of the executable. -/
def toSection (file : Bytes) (s : NamedSection) : Except ObjectFault Section :=
  match s.entry.contents? file with
  | some data =>
      .ok ⟨s.name, s.entry.address, s.entry.size, data, s.entry.isExecutable⟩
  | none => .error (.badSectionData s.name)

end NamedSection

/-! ## Symbols -/

/-- The number of the section that holds a symbol, which is the `index`th
    of its table.  Numbers from 0xFF00 on are no sections, but 0xFFFF says
    to look it up. -/
def sectionNumberOf? (table : SymbolTable) (index : Nat)
    (entry : SymbolEntry) : Option Nat :=
  if entry.sectionNumber = 0xFFFF then table.sections[index]?
  else if entry.sectionNumber < 0xFF00 then some entry.sectionNumber
  else none

/-- The symbols of the executable, of which these are the entries; the
    first of them is the `index`th of its table. -/
def symbolsFrom (named : List NamedSection) (table : SymbolTable)
    (index : Nat) : List SymbolEntry → List Symbol
  | [] => []
  | entry :: rest =>
      { name := (table.names.get? entry.nameOffset).getD ""
        value := entry.value
        container := (sectionNumberOf? table index entry).bind
          (NamedSection.positionOf? named) }
      :: symbolsFrom named table (index + 1) rest

/-- The symbols of the executable.  The first entry of a table is none. -/
def symbols (named : List NamedSection) (table : SymbolTable) : List Symbol :=
  symbolsFrom named table 1 table.entries.tail

/-! ## Relocations -/

/-- The type that an architecture has for addresses in words of 32 bits. -/
def absoluteType : Architecture → Nat
  | .m68k => 1
  | .arm => 2

/-- The sections of relocations that count, with their numbers. -/
def countedSections (f : File) : List (SectionEntry × Nat) :=
  f.sections.zipIdx.filter (·.1.countsFor f.symbols.sectionNumber)

/-- The sections of relocations that belong to the section with a number,
    in the order of the file.  A section of relocations that counts is
    itself said to have those that follow it and belong where it does.
    Section 0 ends the list. -/
def chain (f : File) (number : Nat) : List SectionEntry :=
  let counted := countedSections f
  let members : List (SectionEntry × Nat) :=
    match counted.find? (·.2 = number) with
    | some itself =>
        counted.filter fun other =>
          other.1.info = itself.1.info && number < other.2
    | none => counted.filter (·.1.info = number)
  (members.takeWhile (·.2 ≠ 0)).map (·.1)

/-- What the address in a relocation belongs to. -/
def targetOf (f : File) (symbol : Nat) : RelocationTarget :=
  if 1 ≤ symbol ∧ symbol < f.symbols.entries.length then .symbol (symbol - 1)
  else .absolute

/-- The number of addresses of 64 bits. -/
def addressLimit : Nat := 0x1_0000_0000_0000_0000

/-- A relocation in the section at a position.  Its address is reckoned
    from the start of the section, modulo 64 bits. -/
def relocation (f : File) (a : Architecture) (position start : Nat)
    (entry : RelocationEntry) : Relocation where
  type := if entry.type = absoluteType a then .absolute32
    else .other entry.type
  container := position
  offset := (entry.address + (addressLimit - start)) % addressLimit
  target := targetOf f entry.symbol

/-- The entries in a section of relocations; one that is damaged has
    none. -/
def relocationEntries (f : File) (entry : SectionEntry) :
    List RelocationEntry :=
  match entry.type with
  | .relocations addends =>
      ((entry.table? f.bytes f.form.alignment
        (f.form.relocationEntrySize addends)).getD []).map
        (RelocationEntry.decode f.form)
  | _ => []

/-- The relocations in the named sections, which are at these positions. -/
def relocations (f : File) (a : Architecture)
    (named : List (NamedSection × Nat)) : List Relocation :=
  named.flatMap fun (s, position) =>
    (chain f s.number).flatMap fun entry =>
      (relocationEntries f entry).map
        (relocation f a position s.entry.address)

/-! ## The whole executable -/

/-- The type of a file that is a linked executable. -/
def executableType : Nat := 2

/-- The architecture of a file, if it is a linked executable for one that
    is known. -/
def File.architecture (f : File) : Except ObjectError Architecture :=
  if f.type ≠ executableType then .error .notLinked
  else match f.machine with
    | 4 => .ok .m68k
    | 40 => .ok .arm
    | machine => .error (.unsupportedMachine machine)

end Handheld.Elf

namespace Handheld

/-- A linked executable in an ELF file. -/
structure Elf where
  file : Elf.File
  architecture : Architecture

namespace Elf

/-- Reads the tables of an executable. -/
def ofBytes (bytes : Bytes) : Except ObjectError Elf := do
  let file ← (File.ofBytes bytes).mapError .notAnObject
  let architecture ← file.architecture
  return ⟨file, architecture⟩

/-- What reading an executable reports. -/
def events (e : Elf) : List Event :=
  [.debug s!"{e.architecture.text} executable with entry point {Numeral.address e.file.entry}"]

/-- The executable as it is packed. -/
def executable (e : Elf) : Except ObjectError Executable := do
  let named ← (NamedSection.all e.file).mapError .malformed
  let sections ← (named.mapM (NamedSection.toSection e.file.bytes)).mapError
    .malformed
  return {
    architecture := e.architecture
    entry := e.file.entry
    sections := sections
    symbols := symbols named e.file.symbols
    relocations := relocations e.file e.architecture named.zipIdx }

end Elf

end Handheld
