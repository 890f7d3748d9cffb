import Handheld.Database.Kind

/-! # Slots — the entries of a directory

    The directory after the header is a count in 16 bits and one slot of
    fixed size for each entry.  A slot tells where the data of its entry
    starts, but not where it ends:

    | kind     | slot                                                  |
    |----------|-------------------------------------------------------|
    | resource | type (4), number (2), offset (4)                      |
    | record   | offset (4), attributes and category (1), number (3)   |
 -/

namespace Handheld

/-- A directory entry: its key, its value without the data, and the offset
    at which the data starts. -/
structure Slot (k : Kind) where
  key : k.Key
  stub : k.Value
  offset : UInt32

namespace Slot

/-- The size of one slot. -/
def size : Kind → Nat
  | .resource => 10
  | .record => 8

/-- The size of the count before the slots. -/
def countSize : Nat := 2

/-- The size of a directory of `count` entries. -/
def directorySize (k : Kind) (count : Nat) : Nat :=
  countSize + count * size k

/-- The bytes of the slot for an entry. -/
def encode : (k : Kind) → k.Key → k.Value → Nat → Bytes
  | .resource, key, _, offset =>
      key.type.bytes ++ Bytes.bigEndian 2 key.id.toNat
        ++ Bytes.bigEndian 4 offset
  | .record, id, record, offset =>
      Bytes.bigEndian 4 offset ++ [record.attributeByte]
        ++ Bytes.bigEndian 3 id.toNat

/-- The slot in the given bytes. -/
def decode : (k : Kind) → Bytes → Slot k
  | .resource, raw =>
      { key := ⟨Tag.readAt raw 0, (Bytes.word raw 4 2).toUInt16⟩
        stub := []
        offset := (Bytes.word raw 6 4).toUInt32 }
  | .record, raw =>
      { key := Narrow.masked 24 (Bytes.word raw 5 3)
        stub := Record.ofByte (Bytes.byteAt raw 4) []
        offset := (Bytes.word raw 0 4).toUInt32 }

/-- The slots of a directory, last one first, in front of those before
    them. -/
def decodeAll (k : Kind) (before : List (Slot k)) : Nat → Bytes → List (Slot k)
  | 0, _ => before
  | count + 1, raw =>
      decodeAll k (decode k (raw.take (size k)) :: before) count
        (raw.drop (size k))

end Slot

end Handheld
