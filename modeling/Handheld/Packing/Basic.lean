import Handheld.Compression.DataResource
import Handheld.Database.Basic
import Handheld.Executable.Elf.Image
import Handheld.Packing.DataImage

/-! # Packing — a linked executable as resources

    The code is described by `CodeRole` and `MainCode`, the data by the
    executable's `dataImage`.  Relocations are threaded into the image, the
    image is compressed into `data #0`, and the heads of the chains are
    stored in `rloc #0`. -/

namespace Handheld

/-- Whether the data is left out. -/
def discardsData (options : PackOptions) (role : CodeRole) : Bool :=
  role.standalone || !options.emitData

/-- The resource of the heads of chains, which is needed if anything was
    threaded. -/
def headResources (options : PackOptions) (a : Architecture) (t : Threads) :
    List Resource :=
  if t.sites ≠ [] ∨ options.forceRelocations then
    [(⟨rlocType, 0⟩, t.headBytes a)]
  else []

/-- Packs the data. -/
def packData (l : Layout) (options : PackOptions) (origin : String)
    (chains : Nat) : Run PackError (List Resource) := do
  Run.ofExcept l.executable.checkSize
  let threads := threadAll l l.executable.dataImage chains
  Run.tell (threads.events l origin)
  Run.tell (Compression.encodeDataEvents threads.image options.effort)
  let data ← Run.ofExcept
    ((Compression.encodeData threads.image options.effort).mapError
      .compression)
  return headResources options l.executable.architecture threads
    ++ [(⟨dataType, 0⟩, data)]

/-- Packs the data, unless it is left out. -/
def packDataUnlessDiscarded (l : Layout) (options : PackOptions)
    (role : CodeRole) (origin : String) (chains : Nat) :
    Run PackError (List Resource) :=
  if discardsData options role then do
    if l.executable.hasData then
      Run.tell [.warning origin
        "global data present but packaging configured to discard it"]
    return []
  else packData l options origin chains

/-- The resources of an executable, in the order in which they are made. -/
def resources (exe : Executable) (options : PackOptions) (origin : String) :
    Run PackError (List Resource) := do
  let (text, index) ← match exe.find? ".text" with
    | some found => pure found
    | none => throw .textMissing
  let role ← Run.ofExcept (codeRole exe options)
  Run.tell (role.events origin)
  let code ← Run.ofExcept (MainCode.ofText exe text index)
  Run.tell (code.events origin)
  Run.tell (companionEvents exe origin role)
  let first := (role.key, code.bytes) :: companions exe options role
  let names := extraNames options role
  let extra := extraSections exe names
  Run.tell (missingEvents exe origin names)
  let chains ← Run.ofExcept (countChains extra)
  let further ← Run.ofExcept (furtherCode role first extra)
  Run.tell (numberedEvents origin extra further)
  let l := layoutOf exe code extra
  let data ← packDataUnlessDiscarded l options role origin chains.toNat
  Run.tell (spuriousEvents l origin)
  return first ++ further ++ data

/-- Packs an executable into a database that is only a collection of
    resources; problems are reported about `origin`. -/
def pack (exe : Executable) (options : PackOptions) (origin : String) :
    Run PackError (Database .resource) := do
  let made ← resources exe options origin
  return (Database.new .resource Header.blank).insertAll made

/-- Packs the executable in an ELF file. -/
def packElf (elf : Elf) (options : PackOptions) (origin : String) :
    Run PackError (Database .resource) := do
  let exe ← Run.ofExcept (elf.executable.mapError .object)
  pack exe options origin

end Handheld
