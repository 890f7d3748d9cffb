import Handheld.Database.Header
import Handheld.Database.Kind
import Handheld.Json.Reading

/-! # Database values as JSON — how tags, keys, flags and headers are written

    Tags are texts: they are written as they are shown, and read by their
    UTF-8 bytes.  Keys are objects of a type and a number, flags are the
    texts of `Flags`, and all numbers are plain. -/

namespace Handheld

namespace Tag

/-- A tag as it is written. -/
def toJson (t : Tag) : Json := .ofText t.text

/-- The tag that a value is. -/
def ofJson? (j : Json) : Option Tag :=
  j.text?.bind fun text => (ofText text).toOption

end Tag

namespace ResourceKey

/-- The members of a key. -/
def members (k : ResourceKey) : List (String × Json) :=
  [("type", k.type.toJson), ("id", .ofNat k.id.toNat)]

/-- A key as it is written. -/
def toJson (k : ResourceKey) : Json := .ofMembers k.members

/-- The key of the values of its two fields. -/
def ofFields? : List Json → Option ResourceKey
  | [type, id] =>
      match Tag.ofJson? type, id.natural? 0xFFFF with
      | some type, some id => some ⟨type, id.toUInt16⟩
      | _, _ => none
  | _ => none

/-- The key that a value is. -/
def ofJson? (j : Json) : Option ResourceKey :=
  (j.fields? ["type", "id"]).bind ofFields?

end ResourceKey

namespace Attributes

/-- Flags as they are written. -/
def toJson (a : Attributes) : Json := .ofText a.text

/-- The flags that a value is. -/
def ofJson? (j : Json) : Option Attributes :=
  j.text?.bind ofText?

end Attributes

namespace RecordAttributes

/-- Flags as they are written. -/
def toJson (a : RecordAttributes) : Json := .ofText a.text

/-- The flags that a value is. -/
def ofJson? (j : Json) : Option RecordAttributes :=
  j.text?.bind ofText?

end RecordAttributes

namespace Timestamp

/-- A timestamp as it is written. -/
def toJson (t : Timestamp) : Json := .ofNat t.seconds.toNat

/-- The timestamp that a value is. -/
def ofJson? (j : Json) : Option Timestamp :=
  (j.natural? 0xFFFFFFFF).map fun seconds => ⟨seconds.toUInt32⟩

end Timestamp

namespace Narrow

/-- A narrow number as it is written. -/
def toJson {bits : Nat} (n : BitVec bits) : Json := .ofNat n.toNat

/-- The narrow number that a value is. -/
def ofJson? (bits : Nat) (j : Json) : Option (BitVec bits) :=
  (j.natural? (greatest bits)).map (masked bits)

end Narrow

/-- A header as it is written. -/
def Header.toJson (h : Header) : Json :=
  .ofMembers [
    ("name", .ofText h.name.text),
    ("attributes", h.attributes.toJson),
    ("version", .ofNat h.version.toNat),
    ("created", h.created.toJson),
    ("modified", h.modified.toJson),
    ("backed_up", h.backedUp.toJson),
    ("modification_number", .ofNat h.modificationNumber.toNat),
    ("type", h.type.toJson),
    ("creator", h.creator.toJson),
    ("unique_id_seed", .ofNat h.uniqueIdSeed.toNat)]

end Handheld
