import Handheld.Database.Basic
import Handheld.Journal

/-! # Layout — a database as an image

    An image is the header, the directory, the gap, the AppInfo block, the
    SortInfo block, and then the data of every entry in the order of the
    keys, with nothing in between.  All positions must fit into 32 bits,
    and the number of entries into 16. -/

namespace Handheld.Database

variable {k : Kind}

/-- The number of bytes of an optional block. -/
def blockLength (block : Option Bytes) : Nat :=
  (block.getD []).length

/-- Where the directory ends. -/
def directoryEnd (d : Database k) : Nat :=
  Header.size + Slot.directorySize k d.toList.length

/-- Where the AppInfo block starts, or would start. -/
def appInfoStart (d : Database k) : Nat :=
  d.directoryEnd + d.gap.length

/-- Where the SortInfo block starts, or would start. -/
def sortInfoStart (d : Database k) : Nat :=
  d.appInfoStart + blockLength d.appInfo

/-- Where the data of the first entry starts. -/
def dataStart (d : Database k) : Nat :=
  d.sortInfoStart + blockLength d.sortInfo

/-- The positions at which blocks of these lengths start when they follow
    each other from a position on. -/
def startsFrom (position : Nat) : List Nat → List Nat
  | [] => []
  | length :: rest => position :: startsFrom (position + length) rest

/-- The data of every entry, in order. -/
def dataList (d : Database k) : List Bytes :=
  d.toList.map fun entry => k.data entry.2

/-- Where the data of every entry starts. -/
def starts (d : Database k) : List Nat :=
  startsFrom d.dataStart (d.dataList.map List.length)

/-- The size of the image. -/
def imageSize (d : Database k) : Nat :=
  d.dataStart + d.dataList.flatten.length

/-- The offset that a header gives for a block: zero if it is absent. -/
def blockOffset (block : Option Bytes) (start : Nat) : UInt32 :=
  match block with
  | some _ => start.toUInt32
  | none => 0

/-- The header as it is written. -/
def headerImage (d : Database k) : Bytes :=
  (d.header.withResource k.isResource).encode
    (blockOffset d.appInfo d.appInfoStart)
    (blockOffset d.sortInfo d.sortInfoStart)

/-- The directory as it is written. -/
def directoryImage (d : Database k) : Bytes :=
  Bytes.bigEndian 2 d.toList.length
    ++ (d.toList.zip d.starts).flatMap fun (entry, start) =>
      Slot.encode k entry.1 entry.2 start

/-- The image of a database, whether or not its positions fit. -/
def image (d : Database k) : Bytes :=
  d.headerImage ++ d.directoryImage ++ d.gap ++ d.appInfo.getD []
    ++ d.sortInfo.getD [] ++ d.dataList.flatten

/-- The most entries of a database. -/
def maxEntries : Nat := 65535

/-- The image of a database. -/
def serialize (d : Database k) : Except FormatError Bytes :=
  if d.toList.length ≤ maxEntries ∧ d.imageSize < 0x1_0000_0000 then .ok d.image
  else .error .tooLarge

/-- What writing the image of a database reports. -/
def serializeEvents (d : Database k) : List Event :=
  match d.serialize with
  | .error _ => []
  | .ok image =>
      [.debug s!"serialized {d.size} entries into {image.length} bytes"]

/-- Writes the image into a place of limited room, and returns how much of
    the room is left. -/
def writeWithin (d : Database k) (room : Nat) : Except FormatError Nat :=
  match d.serialize with
  | .error e => .error e
  | .ok image =>
      if image.length ≤ room then .ok (room - image.length)
      else .error (.file .noRoom)

end Handheld.Database
