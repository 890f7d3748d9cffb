import Handheld.Packing.Code
import Handheld.Packing.Threading

/-! # The data image — `.data` and `.bss` as one

    Initialized data and the zeros of `.bss` are laid out as one image, in
    which `.bss` keeps its distance from the start of `.data`. -/

namespace Handheld

namespace Executable

/-- The initialized data. -/
def data? (exe : Executable) : Option (Section × Nat) :=
  exe.find? ".data"

/-- The zero-initialized data. -/
def bss? (exe : Executable) : Option (Section × Nat) :=
  exe.find? ".bss"

/-- The size of a section that may be absent. -/
def sizeOf (s : Option (Section × Nat)) : Nat :=
  match s with
  | some (s, _) => s.size
  | none => 0

/-- Whether there is data of either kind. -/
def hasData (exe : Executable) : Bool :=
  0 < sizeOf exe.data? || 0 < sizeOf exe.bss?

/-- Where `.bss` starts in the image: its distance from `.data`, or zero if
    it does not come after it. -/
def bssBase (exe : Executable) : Nat :=
  match exe.data?, exe.bss? with
  | some (data, _), some (bss, _) => bss.address - data.address
  | _, _ => 0

/-- Where `.bss` ends in the image. -/
def bssEnd (exe : Executable) : Nat :=
  match exe.bss? with
  | some (bss, _) => exe.bssBase + bss.size
  | none => 0

/-- The size of the image. -/
def imageSize (exe : Executable) : Nat :=
  max (sizeOf exe.data?) exe.bssEnd

/-- There is no image if the end of `.bss` is no number of 64 bits. -/
def checkSize (exe : Executable) : Except PackError Unit :=
  if exe.bssEnd < 0x1_0000_0000_0000_0000 then .ok ()
  else .error (.standstill .sizeOverflow)

/-- The image before relocations are threaded. -/
def dataImage (exe : Executable) : Bytes :=
  match exe.data? with
  | some (data, _) => Bytes.resize data.data exe.imageSize
  | none => Bytes.resize [] exe.imageSize

end Executable

/-- Where the sections of the main code, of the data and of the further
    code resources go.  Of several placements of one section the last is
    meant, which is why they are listed backwards. -/
def layoutOf (exe : Executable) (code : MainCode)
    (extra : List (Section × Nat)) : Layout where
  executable := exe
  placements :=
    ((extra.zipIdx firstExtraChain).map fun (s, chain) =>
        (s.2, ⟨chain, 0⟩)).reverse
      ++ (exe.bss?.toList.map fun s => (s.2, ⟨dataChain, exe.bssBase⟩))
      ++ (exe.data?.toList.map fun s => (s.2, ⟨dataChain, 0⟩))
      ++ [(code.index, ⟨textChain, code.branch.length⟩)]

/-- One more chain than there are so far.  They are counted in sixteen
    bits. -/
def nextChain (count : UInt16) : Except PackError UInt16 :=
  if count = 0xFFFF then .error (.standstill .chainOverflow)
  else .ok (count + 1)

/-- Counts the chains: those of the data and of the main code, and one for
    each further section. -/
def countChains (extra : List (Section × Nat)) : Except PackError UInt16 :=
  extra.foldlM (fun count _ => nextChain count) firstExtraChain.toUInt16

/-- What is reported of sections of code that go nowhere. -/
def spuriousEvents (l : Layout) (origin : String) : List Event :=
  (l.executable.sections.zipIdx.filter fun s =>
      s.1.executable && (l.placement? s.2).isNone).map fun s =>
    .warning origin s!"spurious code section {s.1.name}"

/-- What is reported of the relocations. -/
def Threads.events (l : Layout) (origin : String) (t : Threads) :
    List Event :=
  t.skipped.reverse.map (fun (r, cause) =>
      .warning origin
        (cause.message (l.executable.sectionAt r.container).name r))
    ++ [.debug s!"{origin}: threaded {t.sites.length} relocations"]

end Handheld
