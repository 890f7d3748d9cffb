import Handheld.Executable.Basic
import Handheld.Journal
import Handheld.Packing.Branch
import Handheld.Packing.Options

/-! # Code — the resources of a program besides its data

    The section `.text` becomes the main code.  It is accompanied by

    • the traps of `.trap`, if a section `.disposn` makes the code a
      standalone resource and names it;
    • a jump table stub and preferences, if an application is built;
    • further sections, as code resources of the main code's type with the
      next free numbers. -/

namespace Handheld

/-- A resource that is made. -/
abbrev Resource := ResourceKey × Bytes

/-! ## The main code -/

/-- What the main code is, and whether it stands alone. -/
structure CodeRole where
  key : ResourceKey
  standalone : Bool

/-- The size of the beginning of `.disposn` that names the code. -/
def dispositionSize : Nat := 6

/-- The role of the main code. -/
def codeRole (exe : Executable) (options : PackOptions) :
    Except PackError CodeRole :=
  match exe.find? ".disposn" with
  | none => .ok ⟨options.mainCode, false⟩
  | some (s, _) =>
      if s.data.length < dispositionSize then
        .error (.badDisposition s.data.length)
      else .ok ⟨⟨Tag.readAt s.data 0, (Bytes.word s.data 4 2).toUInt16⟩, true⟩

/-- What is reported of the role. -/
def CodeRole.events (origin : String) (role : CodeRole) : List Event :=
  if role.standalone then
    [.note .info s!"{origin}: standalone code resource {role.key.text}"]
  else []

/-- The section `.text` and the way to its entry point. -/
structure MainCode where
  text : Section
  index : Nat
  entryOffset : Nat
  branch : Bytes

namespace MainCode

/-- Where the entry point is in the section, which may be its very end. -/
def entryOffsetIn (exe : Executable) (text : Section) : Except PackError Nat :=
  if text.address ≤ exe.entry ∧ exe.entry - text.address ≤ text.size then
    .ok (exe.entry - text.address)
  else .error (.entryOutsideText exe.entry text.address text.size)

/-- The main code of an executable with this section `.text`. -/
def ofText (exe : Executable) (text : Section) (index : Nat) :
    Except PackError MainCode :=
  match entryOffsetIn exe text with
  | .error e => .error e
  | .ok offset =>
      if offset = 0 then .ok ⟨text, index, offset, []⟩
      else match entryBranch exe.architecture offset with
        | .error e => .error e
        | .ok branch => .ok ⟨text, index, offset, branch⟩

/-- The contents of the resource. -/
def bytes (code : MainCode) : Bytes :=
  code.branch ++ code.text.data

/-- What is reported of the main code. -/
def events (origin : String) (code : MainCode) : List Event :=
  [.debug s!"{origin}: {code.bytes.length} bytes of code; entry point at {Numeral.address code.entryOffset}"]

end MainCode

/-! ## Companions -/

/-- The number of the first trap. -/
def firstTrapId : Nat := 1000

/-- The most traps that have numbers. -/
def maxTraps : Nat := 0x1_0000 - firstTrapId

/-- The traps listed in an executable, two bytes each. -/
def trapList (exe : Executable) : List Bytes :=
  match exe.find? ".trap" with
  | none => []
  | some (s, _) => Bytes.chunks 2 s.data

/-- The resources of the traps. -/
def trapResources (exe : Executable) : List Resource :=
  (((trapList exe).take maxTraps).zipIdx firstTrapId).map fun (trap, id) =>
    (⟨trapType, id.toUInt16⟩, trap)

/-- The stub of a jump table that applications have. -/
def jumpTableStub : Bytes := [
  0x00, 0x00, 0x00, 0x28, 0x00, 0x00, 0x00, 0x00,
  0x00, 0x00, 0x00, 0x08, 0x00, 0x00, 0x00, 0x20,
  0x00, 0x00, 0x3F, 0x3C, 0x00, 0x01, 0xA9, 0xF0]

/-- The priority with which applications are launched. -/
def launchPriority : Nat := 30

/-- The preferences of an application. -/
def preferences (options : PackOptions) : Bytes :=
  Bytes.bigEndian 2 launchPriority
    ++ Bytes.bigEndian 4 options.stackSize.toNat
    ++ Bytes.bigEndian 4 options.heapSize.toNat

/-- The resources that go with the main code. -/
def companions (exe : Executable) (options : PackOptions) (role : CodeRole) :
    List Resource :=
  if role.standalone then trapResources exe
  else if options.product = .application then
    [(⟨codeType, 0⟩, jumpTableStub), (⟨prefType, 0⟩, preferences options)]
  else []

/-- What is reported of them. -/
def companionEvents (exe : Executable) (origin : String) (role : CodeRole) :
    List Event :=
  if role.standalone ∧ maxTraps < (trapList exe).length then
    [.warning origin "too many trap numbers in .trap; ignoring the rest"]
  else []

/-! ## Further code -/

/-- How many numbers there are for the resources of one type. -/
def idCount : Nat := 0x1_0000

/-- The first of the `steps` numbers after `id` whose key is not taken. -/
def freeId? (type : Tag) (taken : List ResourceKey) :
    Nat → UInt16 → Option UInt16
  | 0, _ => none
  | steps + 1, id =>
      if ⟨type, id + 1⟩ ∈ taken then freeId? type taken steps (id + 1)
      else some (id + 1)

/-- The resources of sections, with the next free numbers after `id`, unless
    the numbers run out. -/
def numbered? (type : Tag) (taken : List ResourceKey) (id : UInt16) :
    List Section → Option (List Resource)
  | [] => some []
  | s :: rest =>
      match freeId? type taken idCount id with
      | none => none
      | some next =>
          (numbered? type (⟨type, next⟩ :: taken) next rest).map
            ((⟨type, next⟩, s.data) :: ·)

/-- The names of the further sections that are asked for; a standalone
    code resource has none. -/
def extraNames (options : PackOptions) (role : CodeRole) : List String :=
  if role.standalone then [] else options.extraCode

/-- The further sections that there are, and their positions. -/
def extraSections (exe : Executable) (names : List String) :
    List (Section × Nat) :=
  names.filterMap exe.find?

/-- The resources of further sections, which come after the `first` ones.  A
    search that has seen all numbers would never end. -/
def furtherCode (role : CodeRole) (first : List Resource)
    (extra : List (Section × Nat)) : Except PackError (List Resource) :=
  match numbered? role.key.type (first.map (·.1)) role.key.id
      (extra.map (·.1)) with
  | some further => .ok further
  | none => .error (.standstill .endlessSearch)

/-- What is reported of those that there are not. -/
def missingEvents (exe : Executable) (origin : String) (names : List String) :
    List Event :=
  (names.filter fun name => (exe.find? name).isNone).map fun name =>
    .warning origin s!"code section {name} not found"

/-- What is reported of those that there are. -/
def numberedEvents (origin : String) (sections : List (Section × Nat))
    (resources : List Resource) : List Event :=
  (sections.zip resources).map fun (s, r) =>
    .debug s!"{origin}: section {s.1.name} becomes {r.1.text}"

end Handheld
