import Handheld.Database.Basic
import Handheld.Journal

/-! # Images — databases read from their bytes

    A directory tells where the data of its entries start.  Data extend up
    to where those of the next entry start, or to the end of the image, so
    offsets must not decrease:

    • `openDirectory` checks header and directory;
    • `measure` goes through the slots from the back and finds the length
      of the data of each;
    • `deal` cuts the data apart, `index` puts the entries in order;
    • what lies between directory and data belongs to SortInfo from its
      offset on, before that to AppInfo from its offset on, and before that
      to the gap; an offset outside of what is left is ignored. -/

namespace Handheld.Image

variable {k : Kind}

/-! ## Header and directory -/

/-- A checked beginning of an image. -/
structure Opening where
  raw : RawHeader
  count : Nat
  directoryEnd : Nat

/-- Reads the header and the size of the directory. -/
def openDirectory (k : Kind) (image : Bytes) : Except FormatError Opening :=
  match RawHeader.read image with
  | .error e => .error e
  | .ok raw =>
      if raw.nextDirectory ≠ 0 then
        .error (.furtherDirectory raw.nextDirectory)
      else if raw.header.isResource ≠ k.isResource then
        .error (.wrongKind k.isResource)
      else
        let countEnd := Header.size + Slot.countSize
        if image.length < countEnd then
          .error (.truncated countEnd image.length)
        else
          let count := Bytes.word image Header.size Slot.countSize
          let directoryEnd := Header.size + Slot.directorySize k count
          if image.length < directoryEnd then
            .error (.truncated directoryEnd image.length)
          else .ok ⟨raw, count, directoryEnd⟩

/-! ## Data -/

/-- Finds the lengths of the data of slots, given last one first.  The
    data of the first of them end at `upper`, and none start before
    `lower`.  Returns where the earliest data start, and all slots in order
    with their lengths, before those already measured. -/
def measure (lower upper : Nat) (measured : List (Slot k × Nat)) :
    List (Slot k) → Except FormatError (Nat × List (Slot k × Nat))
  | [] => .ok (upper, measured)
  | slot :: earlier =>
      let offset := slot.offset.toNat
      if lower ≤ offset ∧ offset ≤ upper then
        measure lower offset ((slot, upper - offset) :: measured) earlier
      else .error (.corrupt offset lower upper)

/-- Cuts the data of the slots off one by one, latest entry first in
    front of those already cut off. -/
def deal (dealt : List (k.Key × k.Value)) (data : Bytes) :
    List (Slot k × Nat) → List (k.Key × k.Value)
  | [] => dealt.reverse
  | (slot, length) :: rest =>
      deal ((slot.key, k.withData slot.stub (data.take length)) :: dealt)
        (data.drop length) rest

/-- Puts entries in order; a key may come once. -/
def index (entries : Entries k) :
    List (k.Key × k.Value) → Except FormatError (Entries k)
  | [] => .ok entries
  | (key, value) :: rest =>
      if entries.contains key then .error (.duplicateKey (k.keyText key))
      else index (entries.insert key value) rest

/-! ## Side blocks -/

/-- Whether an offset is that of a block in the `length` bytes from `start`
    on; zero stands for no block. -/
def isHonoured (start length : Nat) (offset : UInt32) : Bool :=
  offset ≠ 0 ∧ start ≤ offset.toNat ∧ offset.toNat ≤ start + length

/-- Cuts the block at an offset off the end of the bytes from `start` on,
    and returns what is left of them as well. -/
def takeBlock (start : Nat) (bytes : Bytes) (offset : UInt32) :
    Option Bytes × Bytes :=
  if isHonoured start bytes.length offset then
    (some (bytes.drop (offset.toNat - start)),
      bytes.take (offset.toNat - start))
  else (none, bytes)

/-- What is reported of an offset that is ignored. -/
def ignoredEvents (block : String) (start length : Nat) (offset : UInt32) :
    List Event :=
  if offset = 0 ∨ isHonoured start length offset then []
  else [.note .warn s!"{block} offset {offset.toNat} outside {start}..={start + length}; ignoring it"]

/-! ## The whole image -/

/-- An image whose directory is sound. -/
structure Plan (k : Kind) where
  opening : Opening
  firstData : Nat
  slots : List (Slot k × Nat)

/-- Reads the directory and measures the data of its entries. -/
def plan (k : Kind) (image : Bytes) : Except FormatError (Plan k) :=
  match openDirectory k image with
  | .error e => .error e
  | .ok opening =>
      let slots := Slot.decodeAll k [] opening.count
        (image.drop (Header.size + Slot.countSize))
      match measure opening.directoryEnd image.length [] slots with
      | .error e => .error e
      | .ok (firstData, slots) => .ok ⟨opening, firstData, slots⟩

namespace Plan

/-- What lies between the directory and the data. -/
def front (p : Plan k) (image : Bytes) : Bytes :=
  Bytes.slice image p.opening.directoryEnd
    (p.firstData - p.opening.directoryEnd)

/-- SortInfo, and what lies before it. -/
def sortInfo (p : Plan k) (image : Bytes) : Option Bytes × Bytes :=
  takeBlock p.opening.directoryEnd (p.front image)
    p.opening.raw.sortInfoOffset

/-- AppInfo, and the gap before it. -/
def appInfo (p : Plan k) (image : Bytes) : Option Bytes × Bytes :=
  takeBlock p.opening.directoryEnd (p.sortInfo image).2
    p.opening.raw.appInfoOffset

/-- The entries in the order of the directory. -/
def entries (p : Plan k) (image : Bytes) : List (k.Key × k.Value) :=
  deal [] (image.drop p.firstData) p.slots

/-- What is reported of side blocks that are ignored. -/
def events (p : Plan k) (image : Bytes) : List Event :=
  ignoredEvents "SortInfo" p.opening.directoryEnd (p.front image).length
      p.opening.raw.sortInfoOffset
    ++ ignoredEvents "AppInfo" p.opening.directoryEnd
      (p.sortInfo image).2.length p.opening.raw.appInfoOffset

end Plan

/-- The database of an image of a given kind. -/
def parse (k : Kind) (image : Bytes) : Except FormatError (Database k) :=
  match plan k image with
  | .error e => .error e
  | .ok p =>
      match index ∅ (p.entries image) with
      | .error e => .error e
      | .ok entries =>
          .ok
            { header := p.opening.raw.header
              appInfo := (p.appInfo image).1
              sortInfo := (p.sortInfo image).1
              gap := (p.appInfo image).2
              entries := entries }

/-- What reading an image reports. -/
def parseEvents (k : Kind) (image : Bytes) : List Event :=
  match openDirectory k image with
  | .error _ => []
  | .ok opening =>
      .debug s!"{opening.count} directory entries; directory ends at {opening.directoryEnd}"
        :: match plan k image, parse k image with
          | .ok p, .ok _ => p.events image
          | _, _ => []

/-- The kind of the database in an image. -/
def kind (image : Bytes) : Except FormatError Kind :=
  (RawHeader.read image).map fun raw =>
    Kind.ofIsResource raw.header.isResource

/-- The database of an image, of the kind that its header tells. -/
def parseAny (image : Bytes) : Except FormatError AnyDatabase :=
  match kind image with
  | .error e => .error e
  | .ok .resource => (parse .resource image).map .resource
  | .ok .record => (parse .record image).map .record

/-- What reading an image of the kind that its header tells reports. -/
def parseAnyEvents (image : Bytes) : List Event :=
  match kind image with
  | .error _ => []
  | .ok k => parseEvents k image

end Handheld.Image
