import Handheld.Executable.Architecture

/-! # Executables — what is packed

    A linked executable has sections, symbols, and relocations, which name
    the places that hold addresses.  Sections and symbols are referred to
    by their positions in the lists. -/

namespace Handheld

/-- A range of addresses, and what is there at the start.  A section that
    takes no room in the file, such as `.bss`, has a size but no data. -/
structure Section where
  name : String
  address : Nat
  size : Nat
  data : Bytes
  executable : Bool
deriving DecidableEq

/-- A named address; absolute and undefined ones are in no section. -/
structure Symbol where
  name : String
  value : Nat
  container : Option Nat
deriving DecidableEq

/-- How an address is stored. -/
inductive RelocationType where
  /-- As a word of 32 bits. -/
  | absolute32
  /-- In some other way, by the number that the architecture has for it. -/
  | other (number : Nat)
deriving DecidableEq

/-- A way of storing an address as it is shown. -/
def RelocationType.text : RelocationType → String
  | .absolute32 => "Absolute32"
  | .other number => s!"Other({number})"

/-- What a stored address belongs to. -/
inductive RelocationTarget where
  | container (index : Nat)
  | symbol (index : Nat)
  | absolute
deriving DecidableEq

/-- A place that holds an address: it is `offset` bytes into the section
    `container`. -/
structure Relocation where
  type : RelocationType
  container : Nat
  offset : Nat
  target : RelocationTarget
deriving DecidableEq

/-- The section that the stored address points into, if it is known. -/
def Relocation.targetSection? (symbols : List Symbol) (r : Relocation) :
    Option Nat :=
  match r.target with
  | .container index => some index
  | .symbol index => symbols[index]?.bind (·.container)
  | .absolute => none

/-- A linked executable. -/
structure Executable where
  architecture : Architecture
  entry : Nat
  sections : List Section
  symbols : List Symbol
  relocations : List Relocation

namespace Executable

/-- The section at a position; past the end, one without anything. -/
def sectionAt (exe : Executable) (index : Nat) : Section :=
  exe.sections.getD index ⟨"", 0, 0, [], false⟩

/-- The first section of a name, and its position. -/
def find? (exe : Executable) (name : String) : Option (Section × Nat) :=
  exe.sections.zipIdx.find? (·.1.name = name)

/-- What is found is at its position and has the name. -/
theorem find?_eq_some {exe : Executable} {name : String} {s : Section}
    {index : Nat} (h : exe.find? name = some (s, index)) :
    exe.sections[index]? = some s ∧ s.name = name := by
  constructor
  · exact List.mem_zipIdx_iff_getElem?.mp (List.mem_of_find?_eq_some h)
  · simpa using List.find?_some h

end Executable

end Handheld
