import Handheld.Database.Attributes
import Handheld.Database.Key
import Handheld.Database.Narrow
import Std.Data.ExtTreeMap

/-! # Kinds — databases of resources and databases of records

    The two kinds of database differ in what their entries are:

    • a resource is plain data, found by a type and a number;
    • a record has attributes and a category beside its data, and is found
      by a number of 24 bits.

    Entries are ordered by the bytes of their keys, that is by `rank`, the
    number that these bytes are. -/

namespace Handheld

/-- The number of a record. -/
abbrev RecordId := BitVec 24

/-- A record: the upper half of its attribute byte, the lower half, and
    its data. -/
structure Record where
  attributes : RecordAttributes
  category : BitVec 4
  data : Bytes
deriving DecidableEq

namespace Record

/-- Attributes and category in one byte. -/
def attributeByte (r : Record) : UInt8 :=
  r.attributes.bits ||| r.category.toNat.toUInt8

/-- The record of an attribute byte and data. -/
def ofByte (byte : UInt8) (data : Bytes) : Record where
  attributes := ⟨byte &&& 0xF0⟩
  category := Narrow.masked 4 byte.toNat
  data := data

end Record

/-- What the entries of a database are. -/
inductive Kind where
  | resource
  | record
deriving DecidableEq

namespace Kind

/-- Whether the entries are resources. -/
def isResource : Kind → Bool
  | .resource => true
  | .record => false

/-- The kind that a header tells. -/
def ofIsResource : Bool → Kind
  | true => .resource
  | false => .record

/-- What entries are found by. -/
abbrev Key : Kind → Type
  | .resource => ResourceKey
  | .record => RecordId

/-- What entries hold. -/
abbrev Value : Kind → Type
  | .resource => Bytes
  | .record => Record

instance : (k : Kind) → DecidableEq k.Key
  | .resource => inferInstanceAs (DecidableEq ResourceKey)
  | .record => inferInstanceAs (DecidableEq RecordId)

instance : (k : Kind) → DecidableEq k.Value
  | .resource => inferInstanceAs (DecidableEq Bytes)
  | .record => inferInstanceAs (DecidableEq Record)

/-- A key as it is shown. -/
def keyText : (k : Kind) → k.Key → String
  | .resource, key => ResourceKey.text key
  | .record, id => s!"{id.toNat}"

/-- The bytes of a key. -/
def keyBytes : (k : Kind) → k.Key → Bytes
  | .resource, key => ResourceKey.bytes key
  | .record, id => Bytes.bigEndian 3 id.toNat

/-- The data of an entry. -/
def data : (k : Kind) → k.Value → Bytes
  | .resource, value => value
  | .record, value => Record.data value

/-- An entry with other data. -/
def withData : (k : Kind) → k.Value → Bytes → k.Value
  | .resource, _, bytes => bytes
  | .record, value, bytes =>
      ⟨Record.attributes value, Record.category value, bytes⟩

/-! ## The order of keys -/

/-- The bytes of a key as one number. -/
def rank (k : Kind) (key : k.Key) : Nat :=
  Bytes.value (k.keyBytes key)

/-- Keys in the order of their bytes. -/
def order (k : Kind) : k.Key → k.Key → Ordering :=
  compareOn k.rank

theorem keyBytes_resource_injective {a b : ResourceKey}
    (h : Kind.resource.keyBytes a = Kind.resource.keyBytes b) : a = b := by
  have split := List.append_inj h (by
    rw [Tag.length_bytes, Tag.length_bytes])
  have ids : a.id.toNat = b.id.toNat := by
    have values := congrArg Bytes.value split.2
    have limit : Nat.pow 256 2 = 0x1_0000 := rfl
    rw [Bytes.value_bigEndian, Bytes.value_bigEndian, limit] at values
    have ha := a.id.toNat_lt
    have hb := b.id.toNat_lt
    omega
  have types := Tag.bytes_injective split.1
  have idsEqual : a.id = b.id := UInt16.toNat_inj.mp ids
  cases a
  cases b
  cases types
  cases idsEqual
  rfl

theorem keyBytes_record_injective {a b : RecordId}
    (h : Kind.record.keyBytes a = Kind.record.keyBytes b) : a = b := by
  have values := congrArg Bytes.value h
  simp only [keyBytes] at values
  have limit : Nat.pow 256 3 = 0x100_0000 := rfl
  rw [Bytes.value_bigEndian, Bytes.value_bigEndian, limit] at values
  have ha := a.isLt
  have hb := b.isLt
  exact BitVec.eq_of_toNat_eq (by omega)

theorem keyBytes_injective (k : Kind) {a b : k.Key}
    (h : k.keyBytes a = k.keyBytes b) : a = b := by
  cases k with
  | resource => exact keyBytes_resource_injective h
  | record => exact keyBytes_record_injective h

/-- The number of bytes of a key. -/
def keyLength : Kind → Nat
  | .resource => 6
  | .record => 3

theorem length_keyBytes (k : Kind) (key : k.Key) :
    (k.keyBytes key).length = k.keyLength := by
  cases k with
  | resource =>
      show (key.type.bytes ++ Bytes.bigEndian 2 key.id.toNat).length = 6
      rw [List.length_append, Tag.length_bytes, Bytes.length_bigEndian]
  | record => exact Bytes.length_bigEndian 3 _

/-- No two keys have one rank. -/
theorem rank_injective (k : Kind) {a b : k.Key} (h : k.rank a = k.rank b) :
    a = b :=
  k.keyBytes_injective (Bytes.value_injective k.keyLength _ _
    (k.length_keyBytes a) (k.length_keyBytes b) h)

instance (k : Kind) : Std.TransCmp k.order :=
  inferInstanceAs (Std.TransCmp (compareOn k.rank))

instance (k : Kind) : Std.LawfulEqCmp k.order where
  eq_of_compare {a b} h := k.rank_injective (by
    have e : compare (k.rank a) (k.rank b) = .eq := h
    exact Nat.compare_eq_eq.mp e)

end Kind

/-- Keys of resources in the order in which a database lists them. -/
def ResourceKey.order : ResourceKey → ResourceKey → Ordering :=
  Kind.resource.order

instance : Std.TransCmp ResourceKey.order :=
  inferInstanceAs (Std.TransCmp (compareOn Kind.resource.rank))

instance : Std.LawfulEqCmp ResourceKey.order where
  eq_of_compare h :=
    Kind.resource.rank_injective (Nat.compare_eq_eq.mp h)

/-- The entries of a database, in the order of their keys. -/
abbrev Entries (k : Kind) := Std.ExtTreeMap k.Key k.Value k.order

end Handheld
