import Handheld.Proofs.Database.Guarded
import Handheld.Proofs.Database.Order

/-! # Inverse codes — headers and slots, written and read back

    A header is written as a row of thirteen fields, and a slot as a row of
    three.  The guarded writer has no rows: it fills a buffer of NULs, each
    field at an offset of its own.  A packed slot has no row either: the
    attributes and the number of a record share one word.

    • `Guarded.put` fills a place of a buffer, and has no answer if the place
      has another size or leaves the buffer; `foldlM_put_rowFrom` says that
      fields behind each other fill it like a row;
    • `Guarded.encode_eq`: the offsets in a header are those of a row;
    • `Packed.encode_eq` and `Packed.decode_eq`: the word of a record is its
      attribute byte in front of its number;
    • `codes_inverse`: both directions, of headers and of slots. -/

namespace Handheld

namespace Image.Guarded

/-! ## Filling a buffer -/

/-- Bytes, and the place in a buffer that they are to fill. -/
structure Filling where
  start : Nat
  stop : Nat
  bytes : Bytes

/-- The buffer with a place filled, which has to be in the buffer and as long
    as the bytes. -/
def put (buffer : Bytes) (f : Filling) : Except Stop Bytes :=
  if f.start ≤ f.stop ∧ f.stop ≤ buffer.length
      ∧ f.bytes.length = f.stop - f.start then
    .ok (Bytes.overwrite buffer f.start f.bytes)
  else .error .outside

/-- The places of fields behind each other, from a position on. -/
def rowFrom (position : Nat) : List Bytes → List Filling
  | [] => []
  | field :: row =>
      ⟨position, position + field.length, field⟩
        :: rowFrom (position + field.length) row

/-- A field fills the first of the NULs behind what is filled. -/
theorem put_behind (front field : Bytes) (left : Nat) :
    put (front ++ List.replicate (field.length + left) 0)
        ⟨front.length, front.length + field.length, field⟩
      = .ok ((front ++ field) ++ List.replicate left 0) := by
  have inside : front.length + field.length
      ≤ (front ++ List.replicate (field.length + left) (0 : UInt8)).length := by
    rw [List.length_append, List.length_replicate]
    omega
  rw [put, if_pos ⟨Nat.le_add_right _ _, inside,
    (Nat.add_sub_cancel_left _ _).symm⟩, List.replicate_add,
    Bytes.overwrite_append List.length_replicate.symm, List.append_assoc]

/-- So a row of fields fills as many NULs as it has bytes. -/
theorem foldlM_put_rowFrom (front : Bytes) (row : List Bytes) (left : Nat) :
    (rowFrom front.length row).foldlM put
        (front ++ List.replicate (row.flatten.length + left) 0)
      = .ok ((front ++ row.flatten) ++ List.replicate left 0) := by
  induction row generalizing front with
  | nil =>
      rw [List.flatten_nil, List.length_nil, Nat.zero_add, List.append_nil]
      rfl
  | cons field row ih =>
      -- the front grows by the field, so the next one starts behind it
      have next := ih (front ++ field)
      rw [List.length_append] at next
      rw [rowFrom, List.foldlM_cons, List.flatten_cons, List.length_append,
        Nat.add_assoc, put_behind]
      exact next.trans (by rw [List.append_assoc front])

/-! ## Names -/

/-- The field of a name: its bytes, put into 32 NULs. -/
def padded (n : Name) : Except Stop Bytes :=
  put (List.replicate Name.fieldSize 0) ⟨0, n.bytes.length, n.bytes⟩

/-- A name always fits its field. -/
theorem padded_eq (n : Name) : padded n = .ok n.padded := by
  have fits : n.bytes.length ≤ Name.fieldSize := n.fits
  have filled := put_behind [] n.bytes (Name.fieldSize - n.bytes.length)
  rwa [List.nil_append, List.length_nil, Nat.zero_add, List.nil_append,
    Nat.add_sub_cancel' fits] at filled

/-- The bytes of a field up to the position of the first NUL, or all of
    them. -/
def nameBytes (field : Bytes) : Except Stop Bytes := do
  let limited ← window field 0 (min field.length Name.fieldSize)
  window limited 0 ((limited.findIdx? (· = 0)).getD limited.length)

theorem nameBytes_eq (field : Bytes) :
    nameBytes field = .ok (Name.ofBytes field).bytes := by
  have limit : 0 + min field.length Name.fieldSize ≤ field.length := by
    rw [Nat.zero_add]
    exact Nat.min_le_left _ _
  have limited : Bytes.slice field 0 (min field.length Name.fieldSize)
      = field.take 32 := by
    rw [Bytes.slice, List.drop_zero, Nat.min_comm, ← List.take_eq_take_min]
    rfl
  have before : (field.take 32).findIdx (fun b => decide (b = 0))
      ≤ (field.take 32).length := List.findIdx_le_length
  rw [nameBytes, window_eq limit, limited]
  dsimp only [Bind.bind, Except.bind]
  rw [← List.findIdx_eq_getD_findIdx?, window_eq (by rwa [Nat.zero_add]),
    Bytes.slice, List.drop_zero]
  refine congrArg Except.ok ?_
  -- taking bytes while they are no NUL stops where the first one is found
  show _ = (field.take 32).takeWhile (fun b => decide (b ≠ 0))
  rw [List.takeWhile_eq_take_findIdx_not]
  simp

/-! ## Headers -/

/-- The fields of a header at their offsets.  The last four bytes, which
    would locate a further directory, are left alone. -/
def fillings (h : Header) (name : Bytes) (appInfo sortInfo : UInt32) :
    List Filling := [
  ⟨0x00, 0x20, name⟩,
  ⟨0x20, 0x22, Bytes.bigEndian 2 h.attributes.bits.toNat⟩,
  ⟨0x22, 0x24, Bytes.bigEndian 2 h.version.toNat⟩,
  ⟨0x24, 0x28, Bytes.bigEndian 4 h.created.seconds.toNat⟩,
  ⟨0x28, 0x2C, Bytes.bigEndian 4 h.modified.seconds.toNat⟩,
  ⟨0x2C, 0x30, Bytes.bigEndian 4 h.backedUp.seconds.toNat⟩,
  ⟨0x30, 0x34, Bytes.bigEndian 4 h.modificationNumber.toNat⟩,
  ⟨0x34, 0x38, Bytes.bigEndian 4 appInfo.toNat⟩,
  ⟨0x38, 0x3C, Bytes.bigEndian 4 sortInfo.toNat⟩,
  ⟨0x3C, 0x40, h.type.bytes⟩,
  ⟨0x40, 0x44, h.creator.bytes⟩,
  ⟨0x44, 0x48, Bytes.bigEndian 4 h.uniqueIdSeed.toNat⟩]

/-- The header, filled into 76 NULs. -/
def encode (h : Header) (appInfo sortInfo : UInt32) : Except Stop Bytes := do
  let name ← padded h.name
  (fillings h name appInfo sortInfo).foldlM put (List.replicate Header.size 0)

/-- The offsets of the fields leave no gap. -/
theorem fillings_eq (h : Header) (appInfo sortInfo : UInt32) :
    fillings h h.name.padded appInfo sortInfo
      = rowFrom 0 (h.row appInfo sortInfo).dropLast := by
  simp [fillings, rowFrom, Header.row, Name.length_padded, Name.fieldSize,
    Bytes.length_bigEndian, Tag.length_bytes]

/-- A buffer that is filled field by field holds the row of fields. -/
theorem encode_eq (h : Header) (appInfo sortInfo : UInt32) :
    encode h appInfo sortInfo = .ok (h.encode appInfo sortInfo) := by
  -- the last field is what the buffer holds from the beginning
  have row : h.row appInfo sortInfo
      = (h.row appInfo sortInfo).dropLast ++ [List.replicate 4 0] := rfl
  have whole : h.encode appInfo sortInfo
      = (h.row appInfo sortInfo).dropLast.flatten ++ List.replicate 4 0 := by
    rw [Header.encode_eq_flatten_row, row, List.flatten_append,
      List.flatten_singleton, ← row]
  have size : (h.row appInfo sortInfo).dropLast.flatten.length + 4
      = Header.size := by
    have length := h.length_encode appInfo sortInfo
    rwa [whole, List.length_append, List.length_replicate] at length
  have filled := foldlM_put_rowFrom [] (h.row appInfo sortInfo).dropLast 4
  rw [encode, padded_eq]
  dsimp only [Bind.bind, Except.bind]
  rw [fillings_eq, whole, ← size]
  exact filled

end Image.Guarded

/-! ## Words of records -/

/-- The number in a window is its first digit in front of the others. -/
theorem Bytes.word_succ {bytes : Bytes} {position width : Nat}
    (h : position + (width + 1) ≤ bytes.length) :
    word bytes position (width + 1)
      = (byteAt bytes position).toNat * 256 ^ width
        + word bytes (position + 1) width := by
  have digit := value_append [byteAt bytes position]
    (slice bytes (position + 1) width)
  rw [length_slice (by omega)] at digit
  rw [word, slice_succ width (by omega)]
  exact digit.trans (congrArg (· * _ + _) (Nat.zero_add _))

namespace Slot.Packed

/-- The attribute byte and the number of a record in one word. -/
def word (id : RecordId) (record : Record) : UInt32 :=
  record.attributeByte.toUInt32 <<< 24 ||| id.toNat.toUInt32

/-- The slot of a record that such a word and an offset tell. -/
def ofWord (word offset : UInt32) : Slot .record :=
  let byte := (word >>> 24).toUInt8
  { key := BitVec.ofNat 24 (word &&& 0x00FF_FFFF).toNat
    stub :=
      { attributes := ⟨byte &&& 0xF0⟩
        category := BitVec.ofNat 4 (byte &&& 0x0F).toNat
        data := [] }
    offset := offset }

/-- The bytes of the slot for an entry. -/
def encode : (k : Kind) → k.Key → k.Value → UInt32 → Bytes
  | .resource, key, _, offset =>
      key.type.bytes ++ Bytes.bigEndian 2 key.id.toNat
        ++ Bytes.bigEndian 4 offset.toNat
  | .record, id, record, offset =>
      Bytes.bigEndian 4 offset.toNat
        ++ Bytes.bigEndian 4 (word id record).toNat

/-- The slot in the given bytes. -/
def decode : (k : Kind) → Bytes → Except Image.Stop (Slot k)
  | .resource, raw => Image.Guarded.decode .resource raw
  | .record, raw => do
      let offset ← Image.Guarded.word raw 0 4
      let word ← Image.Guarded.word raw 4 4
      .ok (ofWord word.toUInt32 offset.toUInt32)

/-- The attribute byte stands above the number. -/
theorem toNat_word (id : RecordId) (record : Record) :
    (word id record).toNat
      = record.attributeByte.toNat * 256 ^ 3 + id.toNat := by
  have byte := record.attributeByte.toNat_lt
  have small : id.toNat < 2 ^ 24 := id.isLt
  have fits : record.attributeByte.toNat <<< 24 < 2 ^ 32 := by
    rw [Nat.shiftLeft_eq]
    omega
  have high : (record.attributeByte.toUInt32 <<< 24).toNat
      = record.attributeByte.toNat <<< 24 := by
    rw [UInt32.toNat_shiftLeft, UInt8.toNat_toUInt32]
    exact Nat.mod_eq_of_lt fits
  -- the number stays below the byte, so that their union is a sum
  rw [word, UInt32.toNat_or, high, Bytes.toNat_toUInt32_of_lt (by omega),
    ← Nat.shiftLeft_add_eq_or_of_lt small, Nat.shiftLeft_eq]
  omega

example : word 0x12_3456 ⟨⟨0xC0⟩, 3, []⟩ = 0xC312_3456 := by decide

/-- The slot of a record ends with its word. -/
theorem encode_eq (k : Kind) (key : k.Key) (value : k.Value)
    (offset : UInt32) :
    encode k key value offset = Slot.encode k key value offset.toNat := by
  cases k with
  | resource => rfl
  | record =>
      have small : BitVec.toNat key < 256 ^ 3 := BitVec.isLt key
      have digits := @Bytes.bigEndian_succ_of_lt 3
        (Record.attributeByte value).toNat (BitVec.toNat key) small
      rw [← toNat_word, Nat.toUInt8_eq, UInt8.ofNat_toNat] at digits
      rw [encode, digits, Slot.encode, List.append_assoc]
      rfl

/-- A word is taken apart into the byte and the number that it is made
    of. -/
theorem ofWord_eq (byte : UInt8) {number : Nat} (small : number < 256 ^ 3)
    (offset : UInt32) :
    ofWord (byte.toNat * 256 ^ 3 + number).toUInt32 offset
      = ⟨Narrow.masked 24 number, Record.ofByte byte [], offset⟩ := by
  have limit := byte.toNat_lt
  have whole := Bytes.toNat_toUInt32_of_lt
    (show byte.toNat * 256 ^ 3 + number < 2 ^ 32 by omega)
  generalize (byte.toNat * 256 ^ 3 + number).toUInt32 = word at whole
  have top : (word >>> 24).toUInt8 = byte := by
    apply UInt8.toNat_inj.mp
    rw [UInt32.toNat_toUInt8, UInt32.toNat_shiftRight, whole]
    show (byte.toNat * 256 ^ 3 + number) >>> 24 % 2 ^ 8 = byte.toNat
    rw [Nat.shiftRight_eq_div_pow]
    omega
  have bottom : (word &&& 0x00FF_FFFF).toNat = number := by
    rw [UInt32.toNat_and, whole]
    refine (Nat.and_two_pow_sub_one_eq_mod _ 24).trans ?_
    omega
  have low : BitVec.ofNat 4 (byte &&& 0x0F).toNat
      = Narrow.masked 4 byte.toNat := by
    apply BitVec.eq_of_toNat_eq
    rw [Narrow.masked, BitVec.toNat_ofNat, BitVec.toNat_ofNat,
      UInt8.toNat_and]
    refine (congrArg (· % 2 ^ 4)
      (Nat.and_two_pow_sub_one_eq_mod byte.toNat 4)).trans ?_
    exact Nat.mod_mod _ _
  simp only [ofWord, top, bottom, low]
  rfl

/-- Reading the word of a record reads its byte and its number. -/
theorem decode_eq {k : Kind} {raw : Bytes} (h : raw.length = Slot.size k) :
    decode k raw = .ok (Slot.decode k raw) := by
  cases k with
  | resource => exact Image.Guarded.decode_eq h
  | record =>
      have size : raw.length = 8 := h
      have small : Bytes.word raw 5 3 < 256 ^ 3 := by
        have lt := Bytes.value_lt (Bytes.slice raw 5 3)
        rwa [Bytes.length_slice (by omega)] at lt
      rw [decode, Image.Guarded.word_eq (by omega),
        Image.Guarded.word_eq (by omega)]
      dsimp only [Bind.bind, Except.bind]
      rw [Bytes.word_succ (by omega), ofWord_eq _ small]
      rfl

end Slot.Packed

/-! ## Both directions -/

/-- A header is read from its own bytes. -/
theorem RawHeader.read_encode (h : Header) (appInfo sortInfo : UInt32) :
    read (h.encode appInfo sortInfo) = .ok ⟨h, appInfo, sortInfo, 0⟩ := by
  have size := h.length_encode appInfo sortInfo
  have whole := ofBytes_encode h appInfo sortInfo []
  rw [List.append_nil] at whole
  rw [read, if_neg (by omega), whole]

/-- The last field of a header is zero if its bytes are. -/
theorem RawHeader.nextDirectory_eq_zero_iff {bytes : Bytes}
    (h : Header.size ≤ bytes.length) :
    (ofBytes bytes).nextDirectory = 0
      ↔ Bytes.slice bytes 0x48 4 = [0, 0, 0, 0] := by
  have field := bigEndian_eq_slice_iff 0 (show 0x48 + 4 ≤ bytes.length from h)
  exact eq_comm.trans (field.symm.trans eq_comm)

/-- A slot that was read is written as it was, with whatever data. -/
theorem Slot.encode_withData_decode (k : Kind) {raw : Bytes}
    (h : raw.length = size k) (data : Bytes) :
    encode k (decode k raw).key (k.withData (decode k raw).stub data)
      (decode k raw).offset.toNat = raw := by
  rw [encode_withData, encode_decode k h]

/-- What a slot keeps of a value: nothing of a resource, and of a record the
    upper and the lower half of its attribute byte. -/
def Kind.IsStub : (k : Kind) → k.Value → k.Value → Prop
  | .resource, _, stub => stub = []
  | .record, value, stub =>
      let byte := Record.attributeByte value
      (Record.attributes stub).bits.toNat = byte.toNat / 16 * 16
        ∧ (Record.category stub).toNat = byte.toNat % 16
        ∧ Record.data stub = []

/-- The upper half of a byte. -/
theorem Record.toNat_attributes_ofByte (byte : UInt8) (data : Bytes) :
    (ofByte byte data).attributes.bits.toNat = byte.toNat / 16 * 16 := by
  have limit := byte.toNat_lt
  have masked : (ofByte byte data).attributes.bits.toNat = byte.toNat &&& 240 :=
    UInt8.toNat_and byte 0xF0
  have upper : (byte.toNat &&& 240) / 2 ^ 4 = byte.toNat / 2 ^ 4 % 2 ^ 4 := by
    rw [Nat.and_div_two_pow]
    exact Nat.and_two_pow_sub_one_eq_mod _ 4
  have lower : (byte.toNat &&& 240) % 2 ^ 4 = 0 := by
    rw [Nat.and_mod_two_pow]
    exact Nat.and_zero _
  rw [masked]
  omega

theorem Kind.isStub_resplit (k : Kind) (value : k.Value) :
    k.IsStub value (k.withData (k.resplit value) []) := by
  cases k with
  | resource => rfl
  | record =>
      exact ⟨Record.toNat_attributes_ofByte _ (Record.data value),
        BitVec.toNat_ofNat _ _, rfl⟩

/-- A slot that was written is read with its key, its offset and a stub of
    the value. -/
theorem Slot.exists_decode_encode (k : Kind) (key : k.Key) (value : k.Value)
    (offset : UInt32) :
    ∃ stub, k.IsStub value stub
      ∧ decode k (encode k key value offset.toNat) = ⟨key, stub, offset⟩ := by
  refine ⟨_, k.isStub_resplit value, ?_⟩
  rw [decode_encode k (key, value) offset.toNat_lt, ofEntry]
  exact congrArg _ (UInt32.ofNat_toNat)

/-- **Headers and slots are read as they were written, and written as they
    were read.**  Filling a buffer field by field gives the bytes of a header,
    from which it is read with the offsets of its blocks.  Of 76 bytes or
    more, a header is read that is written as those bytes, if and only if the
    last field is zero and so is what follows the first NUL of the name.
    Every slot is written as it was read, and read with its key, its offset
    and, for a record, the two halves of the attribute byte. -/
theorem codes_inverse :
    (∀ (h : Header) (appInfo sortInfo : UInt32),
      Image.Guarded.encode h appInfo sortInfo
          = .ok (h.encode appInfo sortInfo)
        ∧ RawHeader.read (h.encode appInfo sortInfo)
          = .ok ⟨h, appInfo, sortInfo, 0⟩)
    ∧ (∀ bytes : Bytes, Header.size ≤ bytes.length →
      ∃ raw, RawHeader.read bytes = .ok raw
        ∧ Image.Guarded.fields bytes = .ok raw
        ∧ Image.Guarded.nameBytes (Bytes.slice bytes 0 Name.fieldSize)
          = .ok raw.header.name.bytes
        ∧ (raw.header.encode raw.appInfoOffset raw.sortInfoOffset
            = bytes.take Header.size
          ↔ Bytes.slice bytes 0x48 4 = [0, 0, 0, 0]
            ∧ Name.IsPadding (Bytes.slice bytes 0 Name.fieldSize)))
    ∧ (∀ (k : Kind) (raw data : Bytes), raw.length = Slot.size k →
      Slot.Packed.decode k raw = .ok (Slot.decode k raw)
        ∧ Slot.encode k (Slot.decode k raw).key
            (k.withData (Slot.decode k raw).stub data)
            (Slot.decode k raw).offset.toNat = raw)
    ∧ (∀ (k : Kind) (key : k.Key) (value : k.Value) (offset : UInt32),
      Slot.Packed.encode k key value offset
          = Slot.encode k key value offset.toNat
        ∧ ∃ stub, k.IsStub value stub
          ∧ Slot.decode k (Slot.encode k key value offset.toNat)
            = ⟨key, stub, offset⟩) := by
  refine ⟨?_, ?_, ?_, ?_⟩
  · intro h appInfo sortInfo
    exact ⟨Image.Guarded.encode_eq h appInfo sortInfo,
      RawHeader.read_encode h appInfo sortInfo⟩
  · intro bytes long
    refine ⟨RawHeader.ofBytes bytes, if_neg (Nat.not_lt_of_le long),
      Image.Guarded.fields_eq long, Image.Guarded.nameBytes_eq _, ?_⟩
    -- the offsets that are written are those that were read
    rw [RawHeader.encode_ofBytes_eq_take_iff long,
      RawHeader.nextDirectory_eq_zero_iff long]
    simp only [true_and]
  · intro k raw data size
    exact ⟨Slot.Packed.decode_eq size,
      Slot.encode_withData_decode k size data⟩
  · intro k key value offset
    exact ⟨Slot.Packed.encode_eq k key value offset,
      Slot.exists_decode_encode k key value offset⟩

/-- A stored header with something behind the first NUL of the name. -/
def scribbledHeader : Bytes :=
  [0x41, 0, 0x42] ++ List.replicate 73 0

/-- It is read, but not written as it was.  Beside it, the slot of a record
    whose word is `0xC3123456`. -/
theorem codes_inverse_scribbledHeader :
    Header.size ≤ scribbledHeader.length
      ∧ (∃ raw, RawHeader.read scribbledHeader = .ok raw
        ∧ raw.header.encode raw.appInfoOffset raw.sortInfoOffset
          ≠ scribbledHeader.take Header.size)
      ∧ [0, 0, 0, 0x60, 0xC3, 0x12, 0x34, 0x56].length = Slot.size .record
      ∧ Slot.Packed.decode .record [0, 0, 0, 0x60, 0xC3, 0x12, 0x34, 0x56]
        = .ok ⟨(0x12_3456 : RecordId), ⟨⟨0xC0⟩, 3, []⟩, 0x60⟩ := by
  have long : Header.size ≤ scribbledHeader.length := by decide
  have size : [0, 0, 0, 0x60, 0xC3, 0x12, 0x34, 0x56].length
      = Slot.size .record := rfl
  have scribbled : ¬ Name.IsPadding
      (Bytes.slice scribbledHeader 0 Name.fieldSize) := by
    intro padding
    exact absurd (padding 1 2 (by decide) (by decide) (by decide)) (by decide)
  obtain ⟨raw, read, -, -, same⟩ := codes_inverse.2.1 scribbledHeader long
  exact ⟨long, ⟨raw, read, fun e => scribbled (same.mp e).2⟩, size,
    (codes_inverse.2.2.1 .record _ [] size).1⟩

end Handheld
