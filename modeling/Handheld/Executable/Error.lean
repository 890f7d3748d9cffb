/-! # Object errors — why bytes are no executable -/

namespace Handheld

/-- What is wrong with the structure of an object file. -/
inductive ObjectFault where
  /-- The file is too short to tell what it is, or begins otherwise. -/
  | unknownFormat
  /-- The header is cut short or of an unknown version. -/
  | badHeader
  | badSegmentTable
  | badSectionTable
  | badNameTable
  | badSymbolTable
  | badRelocationTable
  /-- The name of a section is not in the table of names. -/
  | badSectionName
  /-- A section lies outside the file. -/
  | badSectionData (name : String)
deriving DecidableEq

/-- The wording of a fault. -/
def ObjectFault.message : ObjectFault → String
  | .unknownFormat => "unknown file format"
  | .badHeader => "invalid file header"
  | .badSegmentTable => "invalid segment table"
  | .badSectionTable => "invalid section table"
  | .badNameTable => "invalid table of section names"
  | .badSymbolTable => "invalid symbol table"
  | .badRelocationTable => "invalid relocation section"
  | .badSectionName => "invalid section name"
  | .badSectionData name => s!"section {name}: invalid offset or size"

/-- Why an object file cannot be used. -/
inductive ObjectError where
  | notAnObject (fault : ObjectFault)
  | notLinked
  | unsupportedMachine (machine : Nat)
  | malformed (fault : ObjectFault)
deriving DecidableEq

/-- The wording of the error. -/
def ObjectError.message : ObjectError → String
  | .notAnObject fault => s!"not an object file: {fault.message}"
  | .notLinked => "object file is not a linked executable"
  | .unsupportedMachine machine =>
      s!"unsupported target architecture (machine {machine})"
  | .malformed fault => s!"malformed object file: {fault.message}"

end Handheld
