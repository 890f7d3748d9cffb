import Handheld.Proofs.Database.Written

/-! # Canonical images — what is read is written back

    Other programs lay databases out in other ways: they list keys out of
    order, leave bytes after the NUL of a name, or give offsets of side
    blocks that lie nowhere.  Whatever they do,

    • every byte after the header and the directory is part of the gap, of a
      side block or of the data (`Reads.frontImage_eq`,
      `Reads.perm_dataList`), so that `Reads.fits`: the copy is as long as
      the image;
    • `Reads.headerImage_eq_take_iff` says when the header of the copy is that
      of the image, and `Reads.toList_eq_iff` when its directory is.

    `serialize_parse` puts these together: the three deviations are all
    that a copy can differ by. -/

namespace Handheld

variable {k : Kind}

/-! ## Slots and their entries -/

theorem Kind.isSplit_withData {value : k.Value} (h : k.IsSplit value)
    (bytes : Bytes) : k.IsSplit (k.withData value bytes) := by
  cases k with
  | resource => trivial
  | record => exact h

/-- A slot that is read has attributes in their half of the byte only. -/
theorem Slot.isSplit_decode (k : Kind) (raw : Bytes) :
    k.IsSplit (decode k raw).stub := by
  cases k with
  | resource => trivial
  | record =>
      show (Bytes.byteAt raw 4 &&& 0xF0) &&& 0x0F = 0
      rw [UInt8.and_assoc]
      exact UInt8.and_zero

theorem Slot.isSplit_of_mem_slots {count : Nat} {raw : Bytes} {slot : Slot k}
    (h : slot ∈ slots k count raw) : k.IsSplit slot.stub := by
  induction count generalizing raw with
  | zero => cases h
  | succ count ih =>
      rcases List.mem_cons.mp h with rfl | later
      · exact isSplit_decode k _
      · exact ih later

namespace Image

theorem isSplit_of_mem_entriesOf {slots : List (Slot k)} {data : List Bytes}
    (split : ∀ slot ∈ slots, k.IsSplit slot.stub)
    {entry : k.Key × k.Value} (h : entry ∈ entriesOf slots data) :
    k.IsSplit entry.2 := by
  induction slots generalizing data with
  | nil => cases h
  | cons slot slots ih =>
      obtain _ | ⟨bytes, data⟩ := data
      · cases h
      · rcases List.mem_cons.mp h with rfl | later
        · exact Kind.isSplit_withData (split slot List.mem_cons_self) bytes
        · refine ih ?_ later
          intro other hother
          exact split other (List.mem_cons_of_mem _ hother)

/-- The entries of slots are written as those slots. -/
theorem flatMap_encode_entriesOf {slots : List (Slot k)} {data : List Bytes}
    (h : slots.length = data.length) :
    ((entriesOf slots data).zip (slots.map fun s => s.offset.toNat)).flatMap
        (fun e => Slot.encode k e.1.1 e.1.2 e.2)
      = slots.flatMap fun s => Slot.encode k s.key s.stub s.offset.toNat := by
  induction slots generalizing data with
  | nil => rfl
  | cons slot slots ih =>
      obtain _ | ⟨bytes, data⟩ := data
      · cases h
      · have rest := ih (Nat.succ.inj h)
        rw [entriesOf] at rest
        rw [entriesOf, List.zipWith_cons_cons, List.map_cons,
          List.zip_cons_cons, List.flatMap_cons, rest, List.flatMap_cons,
          Slot.encode_withData]

namespace Reads

variable {image : Bytes} {d : Database k} {first : Nat} {lengths : List Nat}

/-! ## The entries of an image -/

/-- The data of the entries in the order of the directory. -/
def listedData (image : Bytes) (first : Nat) (lengths : List Nat) :
    List Bytes :=
  Bytes.fields lengths (image.drop first)

theorem length_drop (h : Reads image d first lengths) :
    (image.drop first).length = lengths.sum := by
  have ends := h.ends
  rw [List.length_drop]
  omega

theorem map_length_listedData (h : Reads image d first lengths) :
    (listedData image first lengths).map List.length = lengths :=
  Bytes.map_length_fields (Nat.le_of_eq h.length_drop.symm)

theorem length_directory (h : Reads image d first lengths) :
    (directory k image).length = (listedData image first lengths).length := by
  have size := congrArg List.length h.map_length_listedData
  rw [List.length_map] at size
  rw [size, directory, Slot.length_slots, h.count]

/-- The entries of the database are those of the directory. -/
theorem perm_toList (h : Reads image d first lengths) :
    d.toList.Perm
      (entriesOf (directory k image) (listedData image first lengths)) :=
  (index_eq_ok_iff.mp h.entries).2

theorem perm_dataList (h : Reads image d first lengths) :
    d.dataList.Perm (listedData image first lengths) := by
  have perm := h.perm_toList.map fun e => k.data e.2
  rwa [data_entriesOf h.length_directory] at perm

theorem length_toList (h : Reads image d first lengths) :
    d.toList.length = slotCount image := by
  have size := h.perm_dataList.length_eq
  have lengthsEq := congrArg List.length h.map_length_listedData
  rw [List.length_map] at lengthsEq
  rw [Database.dataList, List.length_map] at size
  rw [size, lengthsEq, h.count]

/-- A database that is read is in normal form. -/
theorem normalize_eq_self (h : Reads image d first lengths) :
    d.normalize = d := by
  refine Database.normalize_eq_self ?_ ?_
  · rw [h.header]
    exact h.opened.isResource
  · intro entry member
    refine isSplit_of_mem_entriesOf ?_ (h.perm_toList.mem_iff.mp member)
    intro slot listed
    exact Slot.isSplit_of_mem_slots listed

/-! ## Positions -/

theorem directoryEnd_eq (h : Reads image d first lengths) :
    d.directoryEnd = directoryEnd k image := by
  rw [Database.directoryEnd, h.length_toList, directoryEnd]

/-- What lies between the directory and the data belongs to the gap or to a
    side block, whose offsets are those of the header unless it is
    missing. -/
theorem sides_eq (h : Reads image d first lengths) :
    Bytes.slice image (directoryEnd k image) (first - directoryEnd k image)
        = d.frontImage
      ∧ (Database.blockOffset d.appInfo d.appInfoStart
          = (RawHeader.ofBytes image).appInfoOffset
        ↔ ((RawHeader.ofBytes image).appInfoOffset ≠ 0 → d.appInfo.isSome))
      ∧ (Database.blockOffset d.sortInfo d.sortInfoStart
          = (RawHeader.ofBytes image).sortInfoOffset
        ↔ ((RawHeader.ofBytes image).sortInfoOffset ≠ 0
          → d.sortInfo.isSome)) := by
  obtain ⟨before, cutSort, cutApp⟩ := h.sides
  obtain ⟨front, sortInfo⟩ := takeBlock_eq cutSort
  obtain ⟨rfl, appInfo⟩ := takeBlock_eq cutApp
  rw [← h.directoryEnd_eq] at appInfo sortInfo
  have start : d.directoryEnd + (d.gap ++ d.appInfo.getD []).length
      = d.sortInfoStart := by
    rw [List.length_append, ← Nat.add_assoc]
    rfl
  rw [start] at sortInfo
  exact ⟨front, appInfo, sortInfo⟩

theorem dataStart_eq (h : Reads image d first lengths) :
    d.dataStart = first := by
  have front := congrArg List.length h.sides_eq.1
  have ends := h.ends
  have lower := h.lower_le
  rw [Bytes.length_slice (by omega)] at front
  rw [← d.length_frontImage, h.directoryEnd_eq, ← front]
  omega

/-- The database takes as many bytes as its image. -/
theorem imageSize_eq (h : Reads image d first lengths) :
    d.imageSize = image.length := by
  have sum : (d.dataList.map List.length).sum = lengths.sum := by
    rw [(h.perm_dataList.map List.length).sum_nat, h.map_length_listedData]
  rw [Database.imageSize_eq_sum, h.dataStart_eq, sum, h.ends]

theorem fits (h : Reads image d first lengths)
    (small : image.length < 2 ^ 32) : d.Fits := by
  refine ⟨?_, h.imageSize_eq ▸ small⟩
  have count := Bytes.value_lt
    (Bytes.slice image Header.size Slot.countSize)
  have width : (Bytes.slice image Header.size Slot.countSize).length
      ≤ Slot.countSize := List.length_take_le _ _
  have bound := Nat.pow_le_pow_right (show 0 < 256 by decide) width
  rw [h.length_toList, slotCount, Bytes.word, Database.maxEntries]
  exact Nat.le_of_lt_succ (Nat.lt_of_lt_of_le count bound)

/-! ## What a copy keeps -/

/-- The image, cut where the copy is put together. -/
theorem image_eq (h : Reads image d first lengths) :
    image = image.take Header.size
      ++ (Bytes.bigEndian 2 d.toList.length
        ++ ((directory k image).flatMap
            (fun s => Slot.encode k s.key s.stub s.offset.toNat)
          ++ (d.frontImage ++ image.drop first))) := by
  have inside := h.opened.inside
  have lower := h.lower_le
  have ends := h.ends
  rw [directoryEnd, Slot.directorySize] at inside lower
  have count : Bytes.bigEndian 2 d.toList.length
      = Bytes.slice image Header.size Slot.countSize := by
    rw [h.length_toList]
    refine Bytes.bigEndian_value (Bytes.length_slice ?_)
    omega
  have slots : (directory k image).flatMap
      (fun s => Slot.encode k s.key s.stub s.offset.toNat)
        = Bytes.slice image (Header.size + Slot.countSize)
          (slotCount image * Slot.size k) := by
    refine Slot.flatMap_encode_slots k _ ?_
    rw [List.length_drop]
    omega
  have front := Bytes.slice_append_drop image (directoryEnd k image)
    (first - directoryEnd k image)
  have stop : directoryEnd k image + (first - directoryEnd k image) = first :=
    Nat.add_sub_cancel' h.lower_le
  have start : directoryEnd k image = Header.size + Slot.countSize
      + slotCount image * Slot.size k := (Nat.add_assoc _ _ _).symm
  rw [stop] at front
  rw [count, slots, ← h.sides_eq.1, front, start, Bytes.slice_append_drop,
    Bytes.slice_append_drop, List.take_append_drop]

/-- The header of the copy is that of the image, if its name is padded and
    the offsets of its side blocks were honoured. -/
theorem headerImage_eq_take_iff (h : Reads image d first lengths) :
    d.headerImage = image.take Header.size
      ↔ Name.IsPadding (Bytes.slice image 0 Name.fieldSize)
        ∧ ((RawHeader.ofBytes image).appInfoOffset ≠ 0 → d.appInfo.isSome)
        ∧ ((RawHeader.ofBytes image).sortInfoOffset ≠ 0
          → d.sortInfo.isSome) := by
  have long : Header.size ≤ image.length := by
    have inside := h.opened.inside
    rw [directoryEnd] at inside
    omega
  obtain ⟨-, appInfo, sortInfo⟩ := h.sides_eq
  rw [Database.headerImage, h.header,
    Header.withResource_eq_self h.opened.isResource,
    RawHeader.encode_ofBytes_eq_take_iff long, appInfo, sortInfo]
  constructor
  · rintro ⟨appInfo, sortInfo, -, padding⟩
    exact ⟨padding, appInfo, sortInfo⟩
  · rintro ⟨padding, appInfo, sortInfo⟩
    exact ⟨appInfo, sortInfo, h.opened.noFurther, padding⟩

end Reads

/-- Whether a directory lists its keys in strictly ascending order. -/
def IsAscending (slots : List (Slot k)) : Prop :=
  slots.Pairwise fun a b => k.rank a.key < k.rank b.key

instance (slots : List (Slot k)) : Decidable (IsAscending slots) :=
  inferInstanceAs (Decidable (slots.Pairwise _))

end Image

theorem Database.pairwise_toList (d : Database k) :
    d.toList.Pairwise fun a b => k.rank a.1 < k.rank b.1 := by
  refine Std.ExtTreeMap.ordered_keys_toList.imp ?_
  intro a b before
  exact Nat.compare_eq_lt.mp before

/-- A written directory is in the order of its keys. -/
theorem Database.isAscending_directory {d : Database k} (h : d.Fits) :
    Image.IsAscending (Image.directory k d.image) := by
  have keys : ((d.toList.zip d.starts).map Prod.fst).Pairwise
      fun a b => k.rank a.1 < k.rank b.1 := by
    rw [List.map_fst_zip (Nat.le_of_eq d.length_starts.symm)]
    exact d.pairwise_toList
  rw [directory_image h]
  refine List.pairwise_map.mpr ?_
  exact (List.pairwise_map (f := Prod.fst)).mp keys

namespace Image.Reads

variable {image : Bytes} {d : Database k} {first : Nat} {lengths : List Nat}

/-- Entries that the directory lists in order are kept in its order. -/
theorem toList_eq (h : Reads image d first lengths)
    (ascending : IsAscending (directory k image)) :
    d.toList = entriesOf (directory k image)
      (listedData image first lengths) := by
  have asymm : ∀ a b : k.Key × k.Value, a ∈ d.toList →
      b ∈ entriesOf (directory k image) (listedData image first lengths) →
      k.rank a.1 < k.rank b.1 → k.rank b.1 < k.rank a.1 → a = b := by
    intro a b _ _ before after
    exact absurd (Nat.lt_trans before after) (Nat.lt_irrefl _)
  have keys : ((entriesOf (directory k image)
      (listedData image first lengths)).map Prod.fst).Pairwise
        fun a b => k.rank a < k.rank b := by
    rw [keys_entriesOf h.length_directory]
    exact List.pairwise_map.mpr ascending
  exact List.Perm.eq_of_pairwise asymm d.pairwise_toList
    ((List.pairwise_map (f := Prod.fst)).mp keys) h.perm_toList

/-- The copy of an image is that image, if it has the same header and the
    directory lists its keys in order. -/
theorem image_eq_self_iff (h : Reads image d first lengths)
    (small : image.length < 2 ^ 32) :
    d.image = image
      ↔ IsAscending (directory k image)
        ∧ d.headerImage = image.take Header.size := by
  constructor
  · intro copy
    -- a directory that was written is in order, so this one is
    constructor
    · have ascending := Database.isAscending_directory (h.fits small)
      rwa [copy] at ascending
    · have front : d.image.take Header.size = d.headerImage := by
        rw [d.image_eq]
        exact List.take_left' d.length_headerImage
      rw [← front, copy]
  · rintro ⟨ascending, header⟩
    -- with the entries in order, all parts are those of the image
    have entries := h.toList_eq ascending
    have data : d.dataList = listedData image first lengths := by
      rw [Database.dataList, entries, data_entriesOf h.length_directory]
    have starts : d.starts
        = (directory k image).map fun s => s.offset.toNat := by
      rw [Database.starts, data, h.map_length_listedData, h.dataStart_eq,
        h.starts]
    have slots : d.slotsImage = (directory k image).flatMap
        fun s => Slot.encode k s.key s.stub s.offset.toNat := by
      rw [Database.slotsImage, starts, entries]
      exact flatMap_encode_entriesOf h.length_directory
    have rest : d.dataList.flatten = image.drop first := by
      rw [data]
      exact Bytes.flatten_fields_of_length h.length_drop
    rw [d.image_eq, header, slots, rest]
    exact h.image_eq.symm

end Image.Reads

namespace Database

/-- **What is read is written back.**  The copy of an image is as long as it
    and is read as the same database.  It is the image itself exactly if its
    directory lists keys in ascending order, nothing but NULs follow the
    first NUL of its name, and the offsets of both side blocks, where there
    are any, were honoured. -/
theorem serialize_parse {image : Bytes} {d : Database k}
    (small : image.length < 2 ^ 32) (h : Image.parse k image = .ok d) :
    ∃ copy, d.serialize = .ok copy
      ∧ copy.length = image.length
      ∧ Image.parse k copy = .ok d
      ∧ (copy = image
        ↔ Image.IsAscending (Image.directory k image)
          ∧ Name.IsPadding (Bytes.slice image 0 Name.fieldSize)
          ∧ ((RawHeader.ofBytes image).appInfoOffset ≠ 0 → d.appInfo.isSome)
          ∧ ((RawHeader.ofBytes image).sortInfoOffset ≠ 0
            → d.sortInfo.isSome)) := by
  obtain ⟨first, lengths, reads⟩ := Image.parse_eq_ok_iff.mp h
  have fits := reads.fits small
  refine ⟨d.image, serialize_eq_ok_iff.mpr ⟨fits, rfl⟩, ?_, ?_, ?_⟩
  · rw [length_image, reads.imageSize_eq]
  · rw [parse_image fits, reads.normalize_eq_self]
  · rw [reads.image_eq_self_iff small, reads.headerImage_eq_take_iff]

/-- Two records of one byte each, in an image that lists them in the wrong
    order. -/
def scrambledRecords : Database .record :=
  { new .record Header.blank with gap := [] }.insertAll
    [((7 : RecordId), ⟨⟨0x40⟩, 5, [1]⟩), ((3 : RecordId), ⟨⟨0x80⟩, 1, [2]⟩)]

def scrambledImage : Bytes :=
  Header.blank.encode 0 0 ++ Bytes.bigEndian 2 2
    ++ Slot.encode .record (7 : RecordId) ⟨⟨0x40⟩, 5, []⟩ 94
    ++ Slot.encode .record (3 : RecordId) ⟨⟨0x80⟩, 1, []⟩ 95 ++ [1, 2]

theorem serialize_parse_scrambledImage :
    scrambledImage.length < 2 ^ 32
      ∧ Image.parse .record scrambledImage = .ok scrambledRecords
      ∧ ∃ copy, scrambledRecords.serialize = .ok copy
        ∧ copy.length = scrambledImage.length
        ∧ Image.parse .record copy = .ok scrambledRecords
        ∧ copy ≠ scrambledImage := by
  have small : scrambledImage.length < 2 ^ 32 := by decide
  have parsed : Image.parse .record scrambledImage = .ok scrambledRecords := by
    rfl
  have scrambled : ¬ Image.IsAscending
      (Image.directory .record scrambledImage) := by decide
  obtain ⟨copy, written, size, again, same⟩ := serialize_parse small parsed
  exact ⟨small, parsed, copy, written, size, again,
    fun e => scrambled (same.mp e).1⟩

end Database

end Handheld
