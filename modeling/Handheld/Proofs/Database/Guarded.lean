import Handheld.Proofs.Database.Reading

/-! # The guarded reader — no read outside of the image

    The reader of images takes windows that are cut short at the end of the
    bytes, and differences that stop at zero, so it has an answer even where
    a window or a difference is wrong.  The guarded reader has none there: a
    window that leaves its bytes stops it, and so does a difference below
    zero.

    • `window`, `difference`: the accesses that can stop it; all others are
      made of them;
    • `openDirectory`, `slots`, `walk`, `takeBlock`: the stages, which read
      the image itself, at a position each;
    • `parse_eq`: the guarded reader is only ever stopped by an error of the
      format, and is otherwise the reader. -/

namespace Handheld.Image

variable {k : Kind}

/-- What stops the guarded reader. -/
inductive Stop where
  /-- A window leaves the bytes that it is taken of. -/
  | outside
  /-- More is subtracted than there is. -/
  | underflow
  /-- The bytes are no database. -/
  | refused (cause : FormatError)

namespace Guarded

/-! ## Accesses -/

/-- The `length` bytes at `offset`, all of which have to exist. -/
def window (bytes : Bytes) (offset length : Nat) : Except Stop Bytes :=
  if offset + length ≤ bytes.length then
    .ok (Bytes.slice bytes offset length)
  else .error .outside

/-- The difference of two numbers, the second of which may not be larger. -/
def difference (a b : Nat) : Except Stop Nat :=
  if b ≤ a then .ok (a - b) else .error .underflow

/-- The number in a window. -/
def word (bytes : Bytes) (offset width : Nat) : Except Stop Nat :=
  (window bytes offset width).map Bytes.value

/-- The tag in a window. -/
def tag (bytes : Bytes) (offset : Nat) : Except Stop Tag :=
  (window bytes offset 4).map (Tag.readAt · 0)

/-- The byte at a position. -/
def byte (bytes : Bytes) (position : Nat) : Except Stop UInt8 :=
  (window bytes position 1).map (Bytes.byteAt · 0)

theorem window_eq {bytes : Bytes} {offset length : Nat}
    (h : offset + length ≤ bytes.length) :
    window bytes offset length = .ok (Bytes.slice bytes offset length) :=
  if_pos h

theorem difference_eq {a b : Nat} (h : b ≤ a) :
    difference a b = .ok (a - b) :=
  if_pos h

theorem word_eq {bytes : Bytes} {offset width : Nat}
    (h : offset + width ≤ bytes.length) :
    word bytes offset width = .ok (Bytes.word bytes offset width) := by
  rw [word, window_eq h]
  rfl

theorem tag_eq {bytes : Bytes} {offset : Nat}
    (h : offset + 4 ≤ bytes.length) :
    tag bytes offset = .ok (Tag.readAt bytes offset) := by
  have same : Bytes.slice (Bytes.slice bytes offset 4) 0 4
      = (Tag.readAt bytes offset).bytes := by
    rw [Tag.bytes_readAt h, Bytes.slice_slice (by omega), Nat.add_zero]
  rw [tag, window_eq h]
  exact congrArg Except.ok (Tag.readAt_eq same)

theorem byte_eq {bytes : Bytes} {position : Nat}
    (h : position + 1 ≤ bytes.length) :
    byte bytes position = .ok (Bytes.byteAt bytes position) := by
  have same : Bytes.byteAt (Bytes.slice bytes position 1) 0
      = Bytes.byteAt bytes position := by
    simp [Bytes.byteAt, Bytes.slice]
  rw [byte, window_eq h]
  exact congrArg Except.ok same

/-! ## Header and directory -/

/-- The fields of a header, each read in its window. -/
def fields (image : Bytes) : Except Stop RawHeader := do
  let name ← window image 0 Name.fieldSize
  let attributes ← word image 0x20 2
  let version ← word image 0x22 2
  let created ← word image 0x24 4
  let modified ← word image 0x28 4
  let backedUp ← word image 0x2C 4
  let modificationNumber ← word image 0x30 4
  let appInfoOffset ← word image 0x34 4
  let sortInfoOffset ← word image 0x38 4
  let type ← tag image 0x3C
  let creator ← tag image 0x40
  let uniqueIdSeed ← word image 0x44 4
  let nextDirectory ← word image 0x48 4
  .ok
    { header :=
        { name := Name.ofBytes name
          attributes := ⟨attributes.toUInt16⟩
          version := version.toUInt16
          created := ⟨created.toUInt32⟩
          modified := ⟨modified.toUInt32⟩
          backedUp := ⟨backedUp.toUInt32⟩
          modificationNumber := modificationNumber.toUInt32
          type := type
          creator := creator
          uniqueIdSeed := uniqueIdSeed.toUInt32 }
      appInfoOffset := appInfoOffset.toUInt32
      sortInfoOffset := sortInfoOffset.toUInt32
      nextDirectory := nextDirectory.toUInt32 }

/-- The first 76 bytes hold all fields of a header. -/
theorem fields_eq {image : Bytes} (h : Header.size ≤ image.length) :
    fields image = .ok (RawHeader.ofBytes image) := by
  have size : 76 ≤ image.length := h
  have name : 0 + Name.fieldSize ≤ image.length :=
    Nat.le_trans (by decide) h
  rw [fields, window_eq name]
  simp (disch := omega) only [word_eq, tag_eq]
  rfl

/-- The guarded reader's `Image.openDirectory`. -/
def openDirectory (k : Kind) (image : Bytes) : Except Stop Opening :=
  if image.length < Header.size then
    .error (.refused (.truncated Header.size image.length))
  else do
    let raw ← fields image
    if raw.nextDirectory ≠ 0 then
      .error (.refused (.furtherDirectory raw.nextDirectory))
    else if raw.header.isResource ≠ k.isResource then
      .error (.refused (.wrongKind k.isResource))
    else
      let countEnd := Header.size + Slot.countSize
      if image.length < countEnd then
        .error (.refused (.truncated countEnd image.length))
      else do
        let count ← word image Header.size Slot.countSize
        let directoryEnd := Header.size + Slot.directorySize k count
        if image.length < directoryEnd then
          .error (.refused (.truncated directoryEnd image.length))
        else .ok ⟨raw, count, directoryEnd⟩

theorem openDirectory_eq (k : Kind) (image : Bytes) :
    openDirectory k image
      = (Image.openDirectory k image).mapError .refused := by
  rw [openDirectory, Image.openDirectory, RawHeader.read]
  by_cases short : image.length < Header.size
  · rw [if_pos short, if_pos short]
    rfl
  · rw [if_neg short, if_neg short, fields_eq (Nat.le_of_not_lt short)]
    dsimp only [Bind.bind, Except.bind]
    -- both look at the same conditions from here on
    split
    · rfl
    · split
      · rfl
      · split
        · rfl
        · case isFalse count =>
          rw [word_eq (Nat.le_of_not_lt count)]
          dsimp only
          split
          · rfl
          · rfl

/-! ## Slots -/

/-- The slot in the given bytes, each field read in its window. -/
def decode : (k : Kind) → Bytes → Except Stop (Slot k)
  | .resource, raw => do
      let type ← tag raw 0
      let id ← word raw 4 2
      let offset ← word raw 6 4
      .ok ⟨⟨type, id.toUInt16⟩, [], offset.toUInt32⟩
  | .record, raw => do
      let offset ← word raw 0 4
      let attributes ← byte raw 4
      let id ← word raw 5 3
      .ok ⟨Narrow.masked 24 id, Record.ofByte attributes [],
        offset.toUInt32⟩

theorem decode_eq {raw : Bytes} (h : raw.length = Slot.size k) :
    decode k raw = .ok (Slot.decode k raw) := by
  cases k with
  | resource =>
      have size : raw.length = 10 := h
      simp (disch := omega) only [decode, tag_eq, word_eq]
      rfl
  | record =>
      have size : raw.length = 8 := h
      simp (disch := omega) only [decode, byte_eq, word_eq]
      rfl

/-- The slots of a directory of `count` slots at a position, in order. -/
def slots (k : Kind) (image : Bytes) (position : Nat) :
    Nat → Except Stop (List (Slot k))
  | 0 => .ok []
  | count + 1 => do
      let raw ← window image position (Slot.size k)
      let slot ← decode k raw
      let further ← slots k image (position + Slot.size k) count
      .ok (slot :: further)

theorem slots_eq {image : Bytes} {position count : Nat}
    (h : position + count * Slot.size k ≤ image.length) :
    slots k image position count
      = .ok (Slot.slots k count (image.drop position)) := by
  induction count generalizing position with
  | zero => rfl
  | succ count ih =>
      rw [Nat.succ_mul] at h
      have first : position + Slot.size k ≤ image.length := by omega
      rw [slots, window_eq first]
      dsimp only [Bind.bind, Except.bind]
      rw [decode_eq (Bytes.length_slice first), ih (by omega), Slot.slots,
        List.drop_drop]
      rfl

/-! ## Data -/

/-- Takes the data of slots out of the image, given last one first.  The
    data of the first of them end at `upper`, and none start before
    `lower`.  Returns where the earliest data start, and all entries in
    order. -/
def walk (image : Bytes) (lower upper : Nat)
    (taken : List (k.Key × k.Value)) :
    List (Slot k) → Except Stop (Nat × List (k.Key × k.Value))
  | [] => .ok (upper, taken)
  | slot :: earlier =>
      let offset := slot.offset.toNat
      if lower ≤ offset ∧ offset ≤ upper then do
        let length ← difference upper offset
        let data ← window image offset length
        walk image lower offset
          ((slot.key, k.withData slot.stub data) :: taken) earlier
      else .error (.refused (.corrupt offset lower upper))

/-- What is dealt out comes after what was dealt out before. -/
private theorem deal_cons (entry : k.Key × k.Value) (data : Bytes)
    (measured : List (Slot k × Nat)) :
    deal [entry] data measured = entry :: deal [] data measured := by
  rw [deal_eq, deal_eq]
  rfl

/-- Taking the data on the way back finds the entries that are dealt out
    after measuring. -/
theorem walk_eq {image : Bytes} (lower : Nat) {upper : Nat}
    (h : upper ≤ image.length) (measured : List (Slot k × Nat))
    (back : List (Slot k)) :
    walk image lower upper (deal [] (image.drop upper) measured) back
      = ((measure lower upper measured back).map fun m =>
          (m.1, deal [] (image.drop m.1) m.2)).mapError .refused := by
  induction back generalizing upper measured with
  | nil => rfl
  | cons slot earlier ih =>
      rw [walk, measure]
      split
      case isFalse => rfl
      case isTrue inside =>
        have fits : slot.offset.toNat + (upper - slot.offset.toNat)
            ≤ image.length := by omega
        rw [difference_eq inside.2]
        dsimp only [Bind.bind, Except.bind]
        rw [window_eq fits, ← ih (Nat.le_trans inside.2 h), deal, deal_cons,
          List.drop_drop, Nat.add_sub_cancel' inside.2]
        rfl

/-! ## Side blocks -/

/-- The side block at an offset, which ends at `stop`, and where what lies
    before it ends. -/
def takeBlock (image : Bytes) (lower stop : Nat) (offset : UInt32) :
    Except Stop (Option Bytes × Nat) :=
  let start := offset.toNat
  if offset = 0 then .ok (none, stop)
  else if start < lower ∨ stop < start then .ok (none, stop)
  else do
    let length ← difference stop start
    let block ← window image start length
    .ok (some block, start)

/-- A window of the image is cut like a string of its own. -/
theorem takeBlock_eq {image : Bytes} {lower stop : Nat}
    (lower_le : lower ≤ stop) (stop_le : stop ≤ image.length)
    (offset : UInt32) :
    ∃ block before,
      Image.takeBlock lower (Bytes.slice image lower (stop - lower)) offset
          = (block, Bytes.slice image lower (before - lower))
        ∧ takeBlock image lower stop offset = .ok (block, before)
        ∧ lower ≤ before ∧ before ≤ stop := by
  have size : (Bytes.slice image lower (stop - lower)).length
      = stop - lower := Bytes.length_slice (by omega)
  rw [Image.takeBlock, isHonoured, size, Nat.add_sub_cancel' lower_le,
    takeBlock]
  by_cases zero : offset = 0
  · refine ⟨none, stop, ?_, if_pos zero, lower_le, Nat.le_refl _⟩
    rw [if_neg (by simp [zero])]
  · by_cases outside : offset.toNat < lower ∨ stop < offset.toNat
    · refine ⟨none, stop, ?_, ?_, lower_le, Nat.le_refl _⟩
      · rw [if_neg (by
          rw [decide_eq_true_eq]
          omega)]
      · rw [if_neg zero, if_pos outside]
    · have inside : lower ≤ offset.toNat ∧ offset.toNat ≤ stop := by omega
      refine ⟨some (Bytes.slice image offset.toNat (stop - offset.toNat)),
        offset.toNat, ?_, ?_, inside⟩
      · rw [if_pos (decide_eq_true ⟨zero, inside⟩)]
        rw [Bytes.drop_slice, Bytes.take_slice _ _ (by omega), Nat.sub_sub,
          Nat.add_sub_cancel' inside.1]
      · rw [if_neg zero, if_neg outside, difference_eq inside.2]
        dsimp only [Bind.bind, Except.bind]
        rw [window_eq (by omega)]

/-! ## The whole image -/

/-- The guarded reader's `Image.parse`. -/
def parse (k : Kind) (image : Bytes) : Except Stop (Database k) := do
  let opening ← openDirectory k image
  let slots ← slots k image (Header.size + Slot.countSize) opening.count
  let (firstData, entries) ←
    walk image opening.directoryEnd image.length [] slots.reverse
  let entries ← (index ∅ entries).mapError .refused
  let (sortInfo, stop) ← takeBlock image opening.directoryEnd firstData
    opening.raw.sortInfoOffset
  let (appInfo, stop) ← takeBlock image opening.directoryEnd stop
    opening.raw.appInfoOffset
  let length ← difference stop opening.directoryEnd
  let gap ← window image opening.directoryEnd length
  .ok
    { header := opening.raw.header
      appInfo := appInfo
      sortInfo := sortInfo
      gap := gap
      entries := entries }

/-- **No read leaves the image and no difference is below zero**: the
    guarded reader is only ever stopped by the error that the reader
    returns. -/
theorem parse_eq (k : Kind) (image : Bytes) :
    parse k image = (Image.parse k image).mapError .refused := by
  rw [parse, Image.parse, plan, openDirectory_eq]
  cases ho : Image.openDirectory k image with
  | error e => rfl
  | ok o =>
      obtain ⟨opened, rfl⟩ := openDirectory_eq_ok_iff.mp ho
      have room : Header.size + Slot.countSize
          + slotCount image * Slot.size k ≤ image.length := by
        rw [Nat.add_assoc]
        exact opened.inside
      have walked := walk_eq (directoryEnd k image)
        (Nat.le_refl image.length) [] (directory k image).reverse
      dsimp only [opening, Except.mapError, Bind.bind, Except.bind]
      rw [slots_eq room, decodeAll_eq_reverse_directory]
      dsimp only
      rw [deal, List.reverse_nil] at walked
      rw [← directory, walked]
      cases hm : measure (directoryEnd k image) image.length []
          (directory k image).reverse with
      | error e => rfl
      | ok m =>
          obtain ⟨first, measured⟩ := m
          obtain ⟨new, -, -, blocks⟩ := (measure_eq_ok_iff opened.inside).mp hm
          have first_le : first ≤ image.length := by
            have ends := blocks.ends
            omega
          dsimp only [Except.map, Except.mapError, Plan.entries]
          cases index ∅ (deal [] (image.drop first) measured) with
          | error e => rfl
          | ok entries =>
              obtain ⟨sortInfo, stop, cut, sortInfo_eq, lower_le, stop_le⟩ :=
                takeBlock_eq blocks.lower_le first_le
                  (RawHeader.ofBytes image).sortInfoOffset
              obtain ⟨appInfo, gapEnd, cut', appInfo_eq, gap, gap_le⟩ :=
                takeBlock_eq lower_le (Nat.le_trans stop_le first_le)
                  (RawHeader.ofBytes image).appInfoOffset
              have room : directoryEnd k image + (gapEnd - directoryEnd k image)
                  ≤ image.length := by omega
              simp only [sortInfo_eq, appInfo_eq, difference_eq gap,
                window_eq room, Plan.appInfo, Plan.sortInfo, Plan.front, cut,
                cut']

end Guarded

end Handheld.Image
