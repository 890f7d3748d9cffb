import Handheld.Database.Header
import Handheld.Proofs.Bytes

/-! # Header code — a header as a row of thirteen fields

    The stored header is a row of fields, and each field is written and read
    on its own:

    • `ofBytes_encode` reads a written header back;
    • `encode_ofBytes_eq_take_iff` says when a header that was read is written
      as it was: the offsets have to be those that were read, there is no
      further directory, and nothing follows the first NUL of the name. -/

namespace Handheld

/-! ## Single fields -/

namespace Bytes

/-- A number of 32 bits is kept. -/
theorem toNat_toUInt32_of_lt {n : Nat} (h : n < 2 ^ 32) :
    n.toUInt32.toNat = n := by
  rw [Nat.toUInt32_eq, UInt32.toNat_ofNat']
  exact Nat.mod_eq_of_lt h

theorem toUInt16_value_bigEndian (n : UInt16) :
    (value (bigEndian 2 n.toNat)).toUInt16 = n := by
  rw [value_bigEndian_of_lt n.toNat_lt]
  exact UInt16.ofNat_toNat

theorem toUInt32_value_bigEndian (n : UInt32) :
    (value (bigEndian 4 n.toNat)).toUInt32 = n := by
  rw [value_bigEndian_of_lt n.toNat_lt]
  exact UInt32.ofNat_toNat

theorem bigEndian_toUInt16_value {digits : Bytes} (h : digits.length = 2) :
    bigEndian 2 (value digits).toUInt16.toNat = digits := by
  have small := value_lt digits
  rw [h] at small
  have fits : (value digits).toUInt16.toNat = value digits := by
    rw [Nat.toUInt16_eq, UInt16.toNat_ofNat']
    exact Nat.mod_eq_of_lt small
  rw [fits, bigEndian_value h]

theorem bigEndian_toUInt32_value {digits : Bytes} (h : digits.length = 4) :
    bigEndian 4 (value digits).toUInt32.toNat = digits := by
  have small := value_lt digits
  rw [h] at small
  rw [toNat_toUInt32_of_lt small, bigEndian_value h]

end Bytes

/-- The bytes of a tag that is read are the window that it is read from. -/
theorem Tag.bytes_readAt {bytes : Bytes} {position : Nat}
    (h : position + 4 ≤ bytes.length) :
    (Tag.readAt bytes position).bytes = Bytes.slice bytes position 4 := by
  have at_drop : ∀ i, Bytes.byteAt bytes (position + i)
      = Bytes.byteAt (bytes.drop position) i := fun i => by
    simp [Bytes.byteAt]
  have length : 4 ≤ (bytes.drop position).length := by
    rw [List.length_drop]
    omega
  rw [Tag.readAt, Tag.bytes, Bytes.slice, at_drop 1, at_drop 2, at_drop 3,
    show Bytes.byteAt bytes position = Bytes.byteAt (bytes.drop position) 0
      from at_drop 0]
  generalize bytes.drop position = window at length ⊢
  rcases window with _ | ⟨a, _ | ⟨b, _ | ⟨c, _ | ⟨d, rest⟩⟩⟩⟩
  case cons.cons.cons.cons => rfl
  all_goals simp at length

/-- A tag is read back from its bytes. -/
theorem Tag.readAt_eq {bytes : Bytes} {position : Nat} {t : Tag}
    (h : Bytes.slice bytes position 4 = t.bytes) :
    Tag.readAt bytes position = t := by
  have length := congrArg List.length h
  rw [Bytes.slice, List.length_take, List.length_drop,
    Tag.length_bytes] at length
  exact Tag.bytes_injective ((Tag.bytes_readAt (by omega)).trans h)

/-! ## Names -/

namespace Name

/-- The bytes of a name field after its first NUL are NULs. -/
def IsPadding (field : Bytes) : Prop :=
  ∀ i j, i ≤ j → j < fieldSize → Bytes.byteAt field i = 0 →
    Bytes.byteAt field j = 0

theorem eq_of_bytes {n m : Name} (h : n.bytes = m.bytes) : n = m := by
  cases n
  cases m
  cases h
  rfl

/-- A name is read back from its field. -/
theorem ofBytes_padded (n : Name) : ofBytes n.padded = n := by
  have whole : n.padded.take 32 = n.padded := by
    rw [List.take_of_length_le]
    exact Nat.le_of_eq n.length_padded
  have noNul : ∀ b ∈ n.bytes, decide (b ≠ 0) = true := fun b hb =>
    decide_eq_true fun zero => n.noNul (zero ▸ hb)
  refine eq_of_bytes ?_
  show (n.padded.take 32).takeWhile (· ≠ 0) = n.bytes
  rw [whole, padded, List.takeWhile_append_of_pos noNul,
    List.takeWhile_replicate]
  simp

/-- The field of a name is padded with NULs. -/
theorem isPadding_padded (n : Name) : IsPadding n.padded := by
  intro i j order inside zero
  -- a position with a NUL is past the bytes of the name
  have past : n.bytes.length ≤ i := by
    apply Nat.le_of_not_lt
    intro early
    have byte : Bytes.byteAt n.padded i = n.bytes[i] := by
      simp [Bytes.byteAt, padded, List.getElem?_append_left early, early]
    exact n.noNul (zero ▸ byte ▸ List.getElem_mem early)
  have later : n.bytes.length ≤ j := Nat.le_trans past order
  simp only [Bytes.byteAt, padded, List.getD_eq_getElem?_getD,
    List.getElem?_append_right later, List.getElem?_replicate]
  split <;> rfl

/-- A padded field is written as it was read. -/
theorem padded_ofBytes {field : Bytes} (size : field.length = fieldSize)
    (padding : IsPadding field) : (ofBytes field).padded = field := by
  have whole : field.take 32 = field :=
    List.take_of_length_le (Nat.le_of_eq size)
  have name : (ofBytes field).bytes = field.takeWhile (· ≠ 0) := by
    show (field.take 32).takeWhile (· ≠ 0) = _
    rw [whole]
  have split := List.takeWhile_append_dropWhile
    (p := fun b : UInt8 => decide (b ≠ 0)) (l := field)
  have first := List.head?_dropWhile_not (fun b : UInt8 => decide (b ≠ 0)) field
  generalize field.takeWhile (fun b => decide (b ≠ 0)) = front at split name
  generalize field.dropWhile (fun b => decide (b ≠ 0)) = back at split first
  have length : front.length + back.length = fieldSize := by
    rw [← List.length_append, split, size]
  -- what follows the first NUL are NULs, because that one is
  have zeros : back = List.replicate back.length 0 := by
    refine List.eq_replicate_iff.mpr ⟨rfl, fun b hb => ?_⟩
    obtain ⟨n, hn, rfl⟩ := List.getElem_of_mem hb
    have at_back : ∀ m (hm : m < back.length),
        Bytes.byteAt field (front.length + m) = back[m] := fun m hm => by
      rw [Bytes.byteAt, List.getD_eq_getElem?_getD, ← split,
        List.getElem?_append_right (Nat.le_add_right _ _),
        Nat.add_sub_cancel_left, List.getElem?_eq_getElem hm,
        Option.getD_some]
    have start : back[0] = 0 := by
      simpa [List.head?_eq_getElem?,
        List.getElem?_eq_getElem (Nat.zero_lt_of_lt hn)] using first
    rw [← at_back n hn]
    refine padding (front.length + 0) _ (by omega) (by omega) ?_
    rw [at_back 0 (Nat.zero_lt_of_lt hn), start]
  have rest : fieldSize - front.length = back.length := by omega
  rw [padded, name, rest, ← zeros, split]

end Name

/-! ## The whole header -/

namespace Header

/-- The widths of the fields of a header. -/
def widths : List Nat := [32, 2, 2, 4, 4, 4, 4, 4, 4, 4, 4, 4, 4]

/-- The fields of a header with the offsets of its side blocks. -/
def row (h : Header) (appInfo sortInfo : UInt32) : List Bytes := [
  h.name.padded,
  Bytes.bigEndian 2 h.attributes.bits.toNat,
  Bytes.bigEndian 2 h.version.toNat,
  Bytes.bigEndian 4 h.created.seconds.toNat,
  Bytes.bigEndian 4 h.modified.seconds.toNat,
  Bytes.bigEndian 4 h.backedUp.seconds.toNat,
  Bytes.bigEndian 4 h.modificationNumber.toNat,
  Bytes.bigEndian 4 appInfo.toNat,
  Bytes.bigEndian 4 sortInfo.toNat,
  h.type.bytes,
  h.creator.bytes,
  Bytes.bigEndian 4 h.uniqueIdSeed.toNat,
  Bytes.bigEndian 4 0]

theorem encode_eq_flatten_row (h : Header) (appInfo sortInfo : UInt32) :
    h.encode appInfo sortInfo = (h.row appInfo sortInfo).flatten := by
  simp [encode, row]

theorem widths_row (h : Header) (appInfo sortInfo : UInt32) :
    (h.row appInfo sortInfo).map List.length = widths := by
  simp [row, widths, Bytes.length_bigEndian, Name.length_padded,
    Tag.length_bytes, Name.fieldSize]

theorem length_encode (h : Header) (appInfo sortInfo : UInt32) :
    (h.encode appInfo sortInfo).length = size := by
  rw [encode_eq_flatten_row, List.length_flatten, widths_row]
  rfl

/-- The fields of a string that begins with a header, as windows. -/
theorem fields_widths (bytes : Bytes) :
    Bytes.fields widths bytes = [
      Bytes.slice bytes 0 32, Bytes.slice bytes 0x20 2,
      Bytes.slice bytes 0x22 2, Bytes.slice bytes 0x24 4,
      Bytes.slice bytes 0x28 4, Bytes.slice bytes 0x2C 4,
      Bytes.slice bytes 0x30 4, Bytes.slice bytes 0x34 4,
      Bytes.slice bytes 0x38 4, Bytes.slice bytes 0x3C 4,
      Bytes.slice bytes 0x40 4, Bytes.slice bytes 0x44 4,
      Bytes.slice bytes 0x48 4] := by
  simp [widths, Bytes.fields, Bytes.slice]

end Header

namespace RawHeader

/-- A header is read back, with the offsets of the side blocks. -/
theorem ofBytes_encode (h : Header) (appInfo sortInfo : UInt32)
    (rest : Bytes) :
    ofBytes (h.encode appInfo sortInfo ++ rest)
      = ⟨h, appInfo, sortInfo, 0⟩ := by
  have fields := Bytes.fields_flatten (h.row appInfo sortInfo) rest
  rw [Header.widths_row, ← Header.encode_eq_flatten_row,
    Header.fields_widths, Header.row] at fields
  generalize h.encode appInfo sortInfo ++ rest = bytes at fields
  simp only [List.cons.injEq, and_true] at fields
  obtain ⟨f0, f1, f2, f3, f4, f5, f6, f7, f8, f9, f10, f11, f12⟩ := fields
  simp only [ofBytes, Bytes.word, Name.fieldSize, f0, f1, f2, f3, f4, f5,
    f6, f7, f8, f11, f12, Tag.readAt_eq f9, Tag.readAt_eq f10,
    Name.ofBytes_padded, Bytes.toUInt16_value_bigEndian,
    Bytes.toUInt32_value_bigEndian]
  rfl

/-- A header is written as the bytes that it was read from, if and only if
    its fields are. -/
theorem encode_eq_take_iff_row_eq {bytes : Bytes} (h : Header)
    (appInfo sortInfo : UInt32) :
    h.encode appInfo sortInfo = bytes.take Header.size
      ↔ h.row appInfo sortInfo = Bytes.fields Header.widths bytes := by
  have whole : bytes.take Header.size
      = (Bytes.fields Header.widths bytes).flatten :=
    (Bytes.flatten_fields Header.widths bytes).symm
  constructor
  · intro e
    have row := Bytes.fields_flatten (h.row appInfo sortInfo)
      (bytes.drop Header.size)
    rwa [Header.widths_row, ← Header.encode_eq_flatten_row, e,
      List.take_append_drop, eq_comm] at row
  · intro e
    rw [whole, ← e, Header.encode_eq_flatten_row]

/-- The offset in a header is the number in its field. -/
theorem bigEndian_eq_slice_iff {bytes : Bytes} {position : Nat} (n : UInt32)
    (h : position + 4 ≤ bytes.length) :
    Bytes.bigEndian 4 n.toNat = Bytes.slice bytes position 4
      ↔ n = (Bytes.word bytes position 4).toUInt32 := by
  have field := Bytes.bigEndian_toUInt32_value (Bytes.length_slice h)
  constructor
  · intro e
    rw [Bytes.word, ← e, Bytes.toUInt32_value_bigEndian]
  · intro e
    rw [e, Bytes.word, field]

/-- A header that was read is written as it was, if and only if its blocks
    are where it said, there is no further directory, and nothing follows
    the first NUL of the name. -/
theorem encode_ofBytes_eq_take_iff {bytes : Bytes}
    (h : Header.size ≤ bytes.length) (appInfo sortInfo : UInt32) :
    (ofBytes bytes).header.encode appInfo sortInfo = bytes.take Header.size
      ↔ appInfo = (ofBytes bytes).appInfoOffset
        ∧ sortInfo = (ofBytes bytes).sortInfoOffset
        ∧ (ofBytes bytes).nextDirectory = 0
        ∧ Name.IsPadding (Bytes.slice bytes 0 Name.fieldSize) := by
  have h : 76 ≤ bytes.length := h
  have field2 : ∀ p, p + 2 ≤ 76 →
      Bytes.bigEndian 2 (Bytes.word bytes p 2).toUInt16.toNat
        = Bytes.slice bytes p 2 := fun p hp =>
    Bytes.bigEndian_toUInt16_value (Bytes.length_slice (by omega))
  have field4 : ∀ p, p + 4 ≤ 76 →
      Bytes.bigEndian 4 (Bytes.word bytes p 4).toUInt32.toNat
        = Bytes.slice bytes p 4 := fun p hp =>
    Bytes.bigEndian_toUInt32_value (Bytes.length_slice (by omega))
  have tag : ∀ p, p + 4 ≤ 76 →
      (Tag.readAt bytes p).bytes = Bytes.slice bytes p 4 := fun p hp =>
    Tag.bytes_readAt (by omega)
  have name : (Name.ofBytes (Bytes.slice bytes 0 Name.fieldSize)).padded
        = Bytes.slice bytes 0 Name.fieldSize
      ↔ Name.IsPadding (Bytes.slice bytes 0 Name.fieldSize) := by
    have size : (Bytes.slice bytes 0 Name.fieldSize).length
        = Name.fieldSize :=
      Bytes.length_slice (Nat.le_trans (by decide) h)
    exact ⟨fun e => e ▸ Name.isPadding_padded _, Name.padded_ofBytes size⟩
  have next : Bytes.bigEndian 4 0 = Bytes.slice bytes 0x48 4
      ↔ (ofBytes bytes).nextDirectory = 0 :=
    (bigEndian_eq_slice_iff 0 (by omega)).trans eq_comm
  -- all fields but the name, the offsets and the last one are always
  -- written as they were read
  rw [encode_eq_take_iff_row_eq, Header.fields_widths, Header.row]
  simp only [List.cons.injEq, and_true]
  constructor
  · rintro ⟨f0, -, -, -, -, -, -, f7, f8, -, -, -, f12⟩
    exact ⟨(bigEndian_eq_slice_iff appInfo (by omega)).mp f7,
      (bigEndian_eq_slice_iff sortInfo (by omega)).mp f8, next.mp f12,
      name.mp f0⟩
  · rintro ⟨appInfoEq, sortInfoEq, nextEq, padding⟩
    exact ⟨name.mpr padding, field2 0x20 (by decide), field2 0x22 (by decide),
      field4 0x24 (by decide), field4 0x28 (by decide),
      field4 0x2C (by decide), field4 0x30 (by decide),
      (bigEndian_eq_slice_iff appInfo (by omega)).mpr appInfoEq,
      (bigEndian_eq_slice_iff sortInfo (by omega)).mpr sortInfoEq,
      tag 0x3C (by decide), tag 0x40 (by decide), field4 0x44 (by decide),
      next.mpr nextEq⟩

end RawHeader

end Handheld
