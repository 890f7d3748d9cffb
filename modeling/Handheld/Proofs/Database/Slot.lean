import Handheld.Database.Slot
import Handheld.Proofs.Database.Header

/-! # Slot code — the entries of a directory, written and read

    A slot, too, is a row of fields.  It keeps the key, the offset and, of a
    record, the attribute byte, whose two halves become attributes and
    category again (`Kind.resplit`):

    • `decode_encode` and `encode_decode` for one slot;
    • `slots` are the slots of a directory in order; `slots_flatMap_encode`
      reads a written directory back, and `flatMap_encode_slots` writes one
      that was read. -/

namespace Handheld

/-! ## Attribute bytes -/

namespace Record

private theorem mod_16 (n : Nat) : n % 16 = n &&& 15 :=
  (Nat.and_two_pow_sub_one_eq_mod n 4).symm

private theorem toNat_attributeByte (r : Record) :
    r.attributeByte.toNat = r.attributes.bits.toNat ||| r.category.toNat := by
  have small := r.category.isLt
  have fits : r.category.toNat.toUInt8.toNat = r.category.toNat := by
    rw [Nat.toUInt8_eq, UInt8.toNat_ofNat']
    omega
  rw [attributeByte, UInt8.toNat_or, fits]

/-- An attribute byte is the union of its halves. -/
theorem attributeByte_ofByte (byte : UInt8) (data : Bytes) :
    (ofByte byte data).attributeByte = byte := by
  have small := byte.toNat_lt
  have low : (ofByte byte data).category.toNat = byte.toNat &&& 15 := by
    show (BitVec.ofNat 4 byte.toNat).toNat = _
    rw [BitVec.toNat_ofNat, ← mod_16]
  have high : (ofByte byte data).attributes.bits.toNat
      = byte.toNat &&& 240 := UInt8.toNat_and byte 0xF0
  apply UInt8.toNat_inj.mp
  calc (ofByte byte data).attributeByte.toNat
      = byte.toNat &&& (240 ||| 15) := by
        rw [toNat_attributeByte, high, low, Nat.and_or_distrib_left]
    _ = byte.toNat % 2 ^ 8 := Nat.and_two_pow_sub_one_eq_mod byte.toNat 8
    _ = byte.toNat := Nat.mod_eq_of_lt small

/-- Attributes that only use their half of the byte. -/
def IsSplit (r : Record) : Prop :=
  r.attributes.bits &&& 0x0F = 0

/-- The halves of an attribute byte are found again. -/
theorem ofByte_attributeByte {r : Record} (h : r.IsSplit) :
    ofByte r.attributeByte r.data = r := by
  have low : r.attributes.bits.toNat &&& 15 = 0 := by
    have e := congrArg UInt8.toNat h
    rwa [UInt8.toNat_and] at e
  have high : r.attributes.bits.toNat &&& 240 = r.attributes.bits.toNat := by
    calc r.attributes.bits.toNat &&& 240
        = r.attributes.bits.toNat &&& (240 ||| 15) := by
          rw [Nat.and_or_distrib_left, low, Nat.or_zero]
      _ = r.attributes.bits.toNat % 2 ^ 8 :=
          Nat.and_two_pow_sub_one_eq_mod r.attributes.bits.toNat 8
      _ = r.attributes.bits.toNat :=
          Nat.mod_eq_of_lt r.attributes.bits.toNat_lt
  have category : r.category.toNat &&& 15 = r.category.toNat := by
    rw [← mod_16]
    exact Nat.mod_eq_of_lt r.category.isLt
  have above : r.category.toNat &&& 240 = 0 := by
    rw [← category, Nat.and_assoc]
    exact Nat.and_zero _
  have attributesEq : r.attributeByte &&& 0xF0 = r.attributes.bits := by
    apply UInt8.toNat_inj.mp
    rw [UInt8.toNat_and, toNat_attributeByte]
    show (r.attributes.bits.toNat ||| r.category.toNat) &&& 240 = _
    rw [Nat.and_or_distrib_right, high, above, Nat.or_zero]
  have categoryEq : Narrow.masked 4 r.attributeByte.toNat = r.category := by
    apply BitVec.eq_of_toNat_eq
    rw [Narrow.masked, BitVec.toNat_ofNat, toNat_attributeByte, mod_16,
      Nat.and_or_distrib_right, low, category, Nat.zero_or]
  rw [ofByte, attributesEq, categoryEq]

end Record

/-! ## Values -/

namespace Kind

/-- A value as it is read back: the attribute byte of a record is split
    anew. -/
def resplit : (k : Kind) → k.Value → k.Value
  | .resource, value => value
  | .record, value => Record.ofByte (Record.attributeByte value) (Record.data value)

/-- Values that are read back as they are. -/
def IsSplit : (k : Kind) → k.Value → Prop
  | .resource, _ => True
  | .record, value => Record.IsSplit value

instance : (k : Kind) → (value : k.Value) → Decidable (k.IsSplit value)
  | .resource, _ => isTrue trivial
  | .record, value =>
      inferInstanceAs (Decidable ((Record.attributes value).bits &&& 0x0F = 0))

theorem resplit_eq_self {k : Kind} {value : k.Value} (h : k.IsSplit value) :
    k.resplit value = value := by
  cases k with
  | resource => rfl
  | record => exact Record.ofByte_attributeByte h

theorem data_resplit (k : Kind) (value : k.Value) :
    k.data (k.resplit value) = k.data value := by
  cases k <;> rfl

theorem data_withData (k : Kind) (value : k.Value) (bytes : Bytes) :
    k.data (k.withData value bytes) = bytes := by
  cases k <;> rfl

theorem withData_withData (k : Kind) (value : k.Value) (a b : Bytes) :
    k.withData (k.withData value a) b = k.withData value b := by
  cases k <;> rfl

theorem withData_data (k : Kind) (value : k.Value) :
    k.withData value (k.data value) = value := by
  cases k <;> rfl

end Kind

/-! ## One slot -/

namespace Slot

theorem length_encode (k : Kind) (key : k.Key) (value : k.Value)
    (offset : Nat) : (encode k key value offset).length = size k := by
  cases k <;>
    simp [encode, size, Bytes.length_bigEndian, Tag.length_bytes]

/-- Only the attributes of a value are stored in its slot. -/
theorem encode_withData (k : Kind) (key : k.Key) (value : k.Value)
    (bytes : Bytes) (offset : Nat) :
    encode k key (k.withData value bytes) offset
      = encode k key value offset := by
  cases k <;> rfl

/-- The slot that is read for an entry whose data start at an offset. -/
def ofEntry (k : Kind) (entry : k.Key × k.Value) (offset : Nat) : Slot k where
  key := entry.1
  stub := k.withData (k.resplit entry.2) []
  offset := offset.toUInt32

private theorem toUInt32_value_bigEndian_of_lt {n : Nat} (h : n < 2 ^ 32) :
    (Bytes.value (Bytes.bigEndian 4 n)).toUInt32 = n.toUInt32 := by
  rw [Bytes.value_bigEndian_of_lt h]

theorem decode_encode_resource (key : ResourceKey) (value : Bytes)
    {offset : Nat} (h : offset < 2 ^ 32) :
    decode .resource (encode .resource key value offset)
      = ofEntry .resource (key, value) offset := by
  have raw : encode .resource key value offset
      = key.type.bytes ++ (Bytes.bigEndian 2 key.id.toNat
        ++ Bytes.bigEndian 4 offset) := List.append_assoc _ _ _
  have type : Bytes.slice (encode .resource key value offset) 0 4
      = key.type.bytes := Bytes.slice_eq_of_append (a := []) raw rfl rfl
  have id : Bytes.slice (encode .resource key value offset) 4 2
      = Bytes.bigEndian 2 key.id.toNat :=
    Bytes.slice_eq_of_append raw rfl (Bytes.length_bigEndian 2 _)
  have offset_eq : Bytes.slice (encode .resource key value offset) 6 4
      = Bytes.bigEndian 4 offset :=
    Bytes.slice_eq_of_append (c := []) (by
      rw [raw, ← List.append_assoc, List.append_nil]) rfl
        (Bytes.length_bigEndian 4 _)
  rw [decode, Tag.readAt_eq type, Bytes.word, Bytes.word, id, offset_eq,
    Bytes.toUInt16_value_bigEndian, toUInt32_value_bigEndian_of_lt h]
  rfl

theorem decode_encode_record (id : RecordId) (record : Record)
    {offset : Nat} (h : offset < 2 ^ 32) :
    decode .record (encode .record id record offset)
      = ofEntry .record (id, record) offset := by
  have raw : encode .record id record offset
      = Bytes.bigEndian 4 offset ++ ([record.attributeByte]
        ++ Bytes.bigEndian 3 id.toNat) := List.append_assoc _ _ _
  have offset_eq : Bytes.slice (encode .record id record offset) 0 4
      = Bytes.bigEndian 4 offset :=
    Bytes.slice_eq_of_append (a := []) raw rfl
      (Bytes.length_bigEndian 4 _)
  have byte : Bytes.byteAt (encode .record id record offset) 4
      = record.attributeByte := by
    rw [raw]
    rfl
  have id_eq : Bytes.slice (encode .record id record offset) 5 3
      = Bytes.bigEndian 3 id.toNat :=
    Bytes.slice_eq_of_append (c := []) (by
      rw [raw, ← List.append_assoc, List.append_nil]) rfl
        (Bytes.length_bigEndian 3 _)
  have idBack : Narrow.masked 24 id.toNat = id := by simp [Narrow.masked]
  rw [decode, Bytes.word, Bytes.word, id_eq, offset_eq, byte,
    Bytes.value_bigEndian_of_lt id.isLt, idBack,
    toUInt32_value_bigEndian_of_lt h]
  rfl

/-- A slot is read back: the key, the attributes split anew, and the
    offset. -/
theorem decode_encode (k : Kind) (entry : k.Key × k.Value) {offset : Nat}
    (h : offset < 2 ^ 32) :
    decode k (encode k entry.1 entry.2 offset) = ofEntry k entry offset := by
  cases k with
  | resource => exact decode_encode_resource entry.1 entry.2 h
  | record => exact decode_encode_record entry.1 entry.2 h

theorem encode_decode_resource {raw : Bytes} (h : raw.length = 10) :
    encode .resource (decode .resource raw).key (decode .resource raw).stub
      (decode .resource raw).offset.toNat = raw := by
  have type := Tag.bytes_readAt (show 0 + 4 ≤ raw.length by omega)
  have id := Bytes.bigEndian_toUInt16_value
    (Bytes.length_slice (show 4 + 2 ≤ raw.length by omega))
  have offset := Bytes.bigEndian_toUInt32_value
    (Bytes.length_slice (show 6 + 4 ≤ raw.length by omega))
  have row : Bytes.slice raw 0 4 ++ Bytes.slice raw 4 2
      ++ Bytes.slice raw 6 4 = raw := by
    have fields := Bytes.flatten_fields_of_length
      (show raw.length = [4, 2, 4].sum from h)
    simpa [Bytes.fields, Bytes.slice] using fields
  refine Eq.trans ?_ row
  rw [← type, ← id, ← offset]
  rfl

theorem encode_decode_record {raw : Bytes} (h : raw.length = 8) :
    encode .record (decode .record raw).key (decode .record raw).stub
      (decode .record raw).offset.toNat = raw := by
  have offset := Bytes.bigEndian_toUInt32_value
    (Bytes.length_slice (show 0 + 4 ≤ raw.length by omega))
  have byte : Bytes.slice raw 4 1 = [Bytes.byteAt raw 4] :=
    Bytes.slice_succ 0 (by omega)
  have idLength := Bytes.length_slice (show 5 + 3 ≤ raw.length by omega)
  have id : Bytes.bigEndian 3
      (Narrow.masked 24 (Bytes.word raw 5 3)).toNat
        = Bytes.slice raw 5 3 := by
    have small : Bytes.word raw 5 3 < 2 ^ 24 := by
      have lt := Bytes.value_lt (Bytes.slice raw 5 3)
      rwa [idLength] at lt
    rw [Narrow.masked, BitVec.toNat_ofNat, Nat.mod_eq_of_lt small]
    exact Bytes.bigEndian_value idLength
  have row : Bytes.slice raw 0 4 ++ Bytes.slice raw 4 1
      ++ Bytes.slice raw 5 3 = raw := by
    have fields := Bytes.flatten_fields_of_length
      (show raw.length = [4, 1, 3].sum from h)
    simpa [Bytes.fields, Bytes.slice] using fields
  show Bytes.bigEndian 4 (Bytes.word raw 0 4).toUInt32.toNat
      ++ [(Record.ofByte (Bytes.byteAt raw 4) []).attributeByte]
      ++ Bytes.bigEndian 3 (Narrow.masked 24 (Bytes.word raw 5 3)).toNat = raw
  rw [Record.attributeByte_ofByte, id, ← byte, Bytes.word, offset, row]

/-- A slot is written as it was read. -/
theorem encode_decode (k : Kind) {raw : Bytes} (h : raw.length = size k) :
    encode k (decode k raw).key (decode k raw).stub
      (decode k raw).offset.toNat = raw := by
  cases k with
  | resource => exact encode_decode_resource h
  | record => exact encode_decode_record h

/-! ## All slots of a directory -/

/-- The slots of a directory, in order. -/
def slots (k : Kind) : Nat → Bytes → List (Slot k)
  | 0, _ => []
  | count + 1, raw =>
      decode k (raw.take (size k)) :: slots k count (raw.drop (size k))

/-- Reading a directory gives its slots, last one first. -/
theorem decodeAll_eq (k : Kind) (before : List (Slot k)) (count : Nat)
    (raw : Bytes) :
    decodeAll k before count raw = (slots k count raw).reverse ++ before := by
  induction count generalizing before raw with
  | zero => rfl
  | succ count ih =>
      rw [decodeAll, ih, slots, List.reverse_cons, List.append_assoc]
      rfl

theorem length_slots (k : Kind) (count : Nat) (raw : Bytes) :
    (slots k count raw).length = count := by
  induction count generalizing raw with
  | zero => rfl
  | succ count ih => rw [slots, List.length_cons, ih]

/-- A directory that was written is read back. -/
theorem slots_flatMap_encode (k : Kind)
    (entries : List ((k.Key × k.Value) × Nat)) (rest : Bytes)
    (small : ∀ e ∈ entries, e.2 < 2 ^ 32) :
    slots k entries.length
        (entries.flatMap (fun e => encode k e.1.1 e.1.2 e.2) ++ rest)
      = entries.map fun e => ofEntry k e.1 e.2 := by
  induction entries with
  | nil => rfl
  | cons e entries ih =>
      have length := length_encode k e.1.1 e.1.2 e.2
      rw [List.length_cons, slots, List.flatMap_cons, List.append_assoc,
        List.take_left' length, List.drop_left' length,
        decode_encode k e.1 (small e (by simp)),
        ih fun f hf => small f (by simp [hf])]
      rfl

/-- A directory that was read is written as it was. -/
theorem flatMap_encode_slots (k : Kind) (count : Nat) {raw : Bytes}
    (h : count * size k ≤ raw.length) :
    (slots k count raw).flatMap
        (fun s => encode k s.key s.stub s.offset.toNat)
      = raw.take (count * size k) := by
  induction count generalizing raw with
  | zero => simp [slots]
  | succ count ih =>
      rw [Nat.succ_mul] at h
      have first : (raw.take (size k)).length = size k := by
        rw [List.length_take]
        omega
      rw [slots, List.flatMap_cons, encode_decode k first,
        ih (by rw [List.length_drop]; omega), Nat.succ_mul, Nat.add_comm,
        List.take_add]

end Slot

end Handheld
