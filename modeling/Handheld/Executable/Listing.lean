import Std.Data.HashMap
import Handheld.Executable.Elf.Image

/-! # Listings — an executable as a reader of object files lists it

    A reader of object files lists sections and symbols with the numbers that
    they have in the file, and its relocations refer to these numbers.  An
    executable refers to them by position, and leaves out the sections without
    a name.  Three walks over a listing count these positions, each by itself:

    • `sectionIndices` enters each section with a name into a table, where the
      size of the table is its position; `symbolTable` enters all symbols;
    • `readSections` makes the list of sections, `readSymbols` and
      `readRelocations` look positions up in the tables. -/

namespace Handheld

/-! ## What is listed -/

/-- What the address in a relocation belongs to, by its number. -/
inductive ListedTarget where
  | container (number : Nat)
  | symbol (number : Nat)
  | other

/-- A relocation as it is listed: how the address is stored, in how many bits,
    and the number that the format has for this. -/
structure ListedRelocation where
  address : Nat
  isAbsolute : Bool
  bits : Nat
  type? : Option Nat
  target : ListedTarget

/-- A section as it is listed.  Its name and its contents may be damaged. -/
structure ListedSection where
  number : Nat
  name? : Option String
  isZeros : Bool
  contents? : Option Bytes
  address : Nat
  size : Nat
  flags? : Option Nat
  relocations : List ListedRelocation

/-- A symbol as it is listed. -/
structure ListedSymbol where
  number : Nat
  name? : Option String
  address : Nat
  container? : Option Nat

/-- What a reader of object files lists. -/
structure Listing where
  sections : List ListedSection
  symbols : List ListedSymbol

/-- Positions by the numbers in the file. -/
abbrev Positions := Std.HashMap Nat Nat

/-! ## One section, symbol and relocation -/

namespace ListedSection

/-- What the section holds. -/
def data? (s : ListedSection) : Option Bytes :=
  if s.isZeros then some [] else s.contents?

/-- Whether the section holds instructions. -/
def isExecutable (s : ListedSection) : Bool :=
  match s.flags? with
  | some flags => flags / 4 % 2 = 1
  | none => false

/-- Adds a section to those read, if it has a name. -/
def append (sections : List Section) (s : ListedSection) :
    Except ObjectFault (List Section) :=
  match s.name? with
  | none => .error .badSectionName
  | some name =>
      if name = "" then .ok sections
      else match s.data? with
        | none => .error (.badSectionData name)
        | some data => .ok (sections
            ++ [⟨name, s.address, s.size, data, s.isExecutable⟩])

/-- Enters a section at the next position, if it has a name. -/
def enter (indices : Positions) (s : ListedSection) :
    Except ObjectFault Positions :=
  match s.name? with
  | none => .error .badSectionName
  | some name =>
      .ok (if name = "" then indices
        else indices.insert s.number indices.size)

end ListedSection

namespace ListedSymbol

/-- The symbol, with the position of its section. -/
def symbol (indices : Positions) (s : ListedSymbol) : Symbol where
  name := s.name?.getD ""
  value := s.address
  container := s.container?.bind fun number => indices[number]?

/-- Adds a symbol to those read, and enters its position. -/
def append (indices : Positions) (read : List Symbol × Positions)
    (s : ListedSymbol) : List Symbol × Positions :=
  (read.1 ++ [s.symbol indices], read.2.insert s.number read.1.length)

end ListedSymbol

/-- What the address belongs to, by its position. -/
def ListedTarget.target (indices numbers : Positions) :
    ListedTarget → RelocationTarget
  | .symbol number =>
      match numbers[number]? with
      | some position => .symbol position
      | none => .absolute
  | .container number =>
      match indices[number]? with
      | some position => .container position
      | none => .absolute
  | .other => .absolute

namespace ListedRelocation

/-- How the address is stored. -/
def type (r : ListedRelocation) : RelocationType :=
  if r.isAbsolute ∧ r.bits = 32 then .absolute32 else .other (r.type?.getD 0)

/-- The offset from the start of a section, modulo 64 bits. -/
def offsetIn (s : ListedSection) (r : ListedRelocation) : Nat :=
  (r.address + (Elf.addressLimit - s.address)) % Elf.addressLimit

/-- The relocation, which is in the section at a position. -/
def relocation (indices numbers : Positions) (position : Nat)
    (s : ListedSection) (r : ListedRelocation) : Relocation where
  type := r.type
  container := position
  offset := r.offsetIn s
  target := r.target.target indices numbers

end ListedRelocation

/-! ## The walks -/

namespace Listing

/-- The positions of the sections. -/
def sectionIndices (l : Listing) : Except ObjectFault Positions :=
  l.sections.foldlM ListedSection.enter ∅

/-- The symbols, and their positions. -/
def symbolTable (l : Listing) :
    Except ObjectFault (List Symbol × Positions) := do
  let indices ← l.sectionIndices
  return l.symbols.foldl (ListedSymbol.append indices) ([], ∅)

/-- The sections. -/
def readSections (l : Listing) : Except ObjectFault (List Section) :=
  l.sections.foldlM ListedSection.append []

/-- The symbols. -/
def readSymbols (l : Listing) : Except ObjectFault (List Symbol) := do
  let (symbols, _) ← l.symbolTable
  return symbols

/-- The relocations in a section, if that has a position. -/
def relocationsIn (indices numbers : Positions) (s : ListedSection) :
    List Relocation :=
  match indices[s.number]? with
  | none => []
  | some position =>
      s.relocations.map
        (ListedRelocation.relocation indices numbers position s)

/-- The relocations in all sections. -/
def readRelocations (l : Listing) : Except ObjectFault (List Relocation) := do
  let indices ← l.sectionIndices
  let (_, numbers) ← l.symbolTable
  return l.sections.flatMap (relocationsIn indices numbers)

/-- The executable that is read. -/
def executable (l : Listing) (a : Architecture) (entry : Nat) :
    Except ObjectFault Executable := do
  let sections ← l.readSections
  let symbols ← l.readSymbols
  let relocations ← l.readRelocations
  return ⟨a, entry, sections, symbols, relocations⟩

end Listing

end Handheld
