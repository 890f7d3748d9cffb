import Handheld.Database.Attributes
import Handheld.Database.Error
import Handheld.Database.Name
import Handheld.Database.Tag
import Handheld.Database.Timestamp

/-! # Headers — the 76 bytes at the beginning of a database

    | at   | size | field               | at   | size | field           |
    |------|------|---------------------|------|------|-----------------|
    | 0x00 | 32   | name                | 0x34 | 4    | AppInfo offset  |
    | 0x20 | 2    | attributes          | 0x38 | 4    | SortInfo offset |
    | 0x22 | 2    | version             | 0x3C | 4    | type            |
    | 0x24 | 4    | created             | 0x40 | 4    | creator         |
    | 0x28 | 4    | modified            | 0x44 | 4    | unique id seed  |
    | 0x2C | 4    | backed up           | 0x48 | 4    | next directory  |
    | 0x30 | 4    | modification number |      |      |                 |

    All numbers are big-endian. -/

namespace Handheld

/-- What a header says about its database. -/
structure Header where
  name : Name
  attributes : Attributes
  version : UInt16
  created : Timestamp
  modified : Timestamp
  backedUp : Timestamp
  modificationNumber : UInt32
  type : Tag
  creator : Tag
  uniqueIdSeed : UInt32
deriving DecidableEq

/-- A header as stored, with what locates the blocks of the database. -/
structure RawHeader where
  header : Header
  appInfoOffset : UInt32
  sortInfoOffset : UInt32
  nextDirectory : UInt32
deriving DecidableEq

namespace Header

/-- The size of a header. -/
def size : Nat := 76

/-- The header without any content. -/
def blank : Header where
  name := Name.empty
  attributes := Attributes.none
  version := 0
  created := Timestamp.never
  modified := Timestamp.never
  backedUp := Timestamp.never
  modificationNumber := 0
  type := Tag.zero
  creator := Tag.zero
  uniqueIdSeed := 0

/-- The header of a database made at this time. -/
def fresh (name : Name) (type creator : Tag) (now : Timestamp) : Header where
  name := name
  attributes := Attributes.none
  version := 1
  created := now
  modified := now
  backedUp := Timestamp.never
  modificationNumber := 0
  type := type
  creator := creator
  uniqueIdSeed := 0

/-- Whether the database holds resources. -/
def isResource (h : Header) : Bool :=
  h.attributes.isResource

/-- The header with the resource flag set or cleared. -/
def withResource (h : Header) (resource : Bool) : Header where
  name := h.name
  attributes := h.attributes.withResource resource
  version := h.version
  created := h.created
  modified := h.modified
  backedUp := h.backedUp
  modificationNumber := h.modificationNumber
  type := h.type
  creator := h.creator
  uniqueIdSeed := h.uniqueIdSeed

/-- The stored header, with the offsets of the two side blocks, which are
    zero for blocks that are absent.  There is no further directory. -/
def encode (h : Header) (appInfoOffset sortInfoOffset : UInt32) : Bytes :=
  h.name.padded
    ++ Bytes.bigEndian 2 h.attributes.bits.toNat
    ++ Bytes.bigEndian 2 h.version.toNat
    ++ Bytes.bigEndian 4 h.created.seconds.toNat
    ++ Bytes.bigEndian 4 h.modified.seconds.toNat
    ++ Bytes.bigEndian 4 h.backedUp.seconds.toNat
    ++ Bytes.bigEndian 4 h.modificationNumber.toNat
    ++ Bytes.bigEndian 4 appInfoOffset.toNat
    ++ Bytes.bigEndian 4 sortInfoOffset.toNat
    ++ h.type.bytes
    ++ h.creator.bytes
    ++ Bytes.bigEndian 4 h.uniqueIdSeed.toNat
    ++ Bytes.bigEndian 4 0

end Header

namespace RawHeader

/-- The header in the first 76 bytes. -/
def ofBytes (bytes : Bytes) : RawHeader where
  header :=
    { name := Name.ofBytes (Bytes.slice bytes 0 Name.fieldSize)
      attributes := ⟨(Bytes.word bytes 0x20 2).toUInt16⟩
      version := (Bytes.word bytes 0x22 2).toUInt16
      created := ⟨(Bytes.word bytes 0x24 4).toUInt32⟩
      modified := ⟨(Bytes.word bytes 0x28 4).toUInt32⟩
      backedUp := ⟨(Bytes.word bytes 0x2C 4).toUInt32⟩
      modificationNumber := (Bytes.word bytes 0x30 4).toUInt32
      type := Tag.readAt bytes 0x3C
      creator := Tag.readAt bytes 0x40
      uniqueIdSeed := (Bytes.word bytes 0x44 4).toUInt32 }
  appInfoOffset := (Bytes.word bytes 0x34 4).toUInt32
  sortInfoOffset := (Bytes.word bytes 0x38 4).toUInt32
  nextDirectory := (Bytes.word bytes 0x48 4).toUInt32

/-- Reads a header; whether its fields fit together is not looked at. -/
def read (bytes : Bytes) : Except FormatError RawHeader :=
  if bytes.length < Header.size then
    .error (.truncated Header.size bytes.length)
  else .ok (ofBytes bytes)

end RawHeader

end Handheld
