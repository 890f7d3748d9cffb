import Handheld.Proofs.Database.Conservation

/-! # Writing — offsets foretold in one pass, bytes written in another

    A writer knows the offsets of blocks and data before it writes any of
    them: it adds up lengths, and checks every sum that becomes an offset.
    The bytes come afterwards, one part behind the other.

    • `Stepwise.serialize` is this writer, with a position that runs through
      blocks and entries; `Foretells` follows it, and
      `Stepwise.serialize_eq` says that its checks amount to the one check of
      the whole size;
    • `extent` is what all parts take up, which `imageSize_eq_extent` says is
      the whole size;
    • `IsLaidOut` collects what has to hold of an image, with each offset
      compared to the length of the bytes in front of what it locates;
    • `serialize_outcome`: a database is laid out or too large. -/

namespace Handheld

variable {k : Kind}

namespace Database

/-! ## The running position -/

namespace Stepwise

/-- A position as an offset of 32 bits. -/
def offset? (position : Nat) : Except FormatError UInt32 :=
  if position < 2 ^ 32 then .ok position.toUInt32 else .error .tooLarge

/-- The offset of a block that may be absent, and the position after it. -/
def placeBlock (position : Nat) :
    Option Bytes → Except FormatError (UInt32 × Nat)
  | none => .ok (0, position)
  | some block => do
      let offset ← offset? position
      .ok (offset, position + block.length)

/-- The directory with the slots of further entries, whose data start at a
    position, and the position after these data. -/
def placeEntries (directory : Bytes) (position : Nat) :
    List (k.Key × k.Value) → Except FormatError (Bytes × Nat)
  | [] => .ok (directory, position)
  | entry :: rest => do
      let offset ← offset? position
      placeEntries
        (directory ++ Slot.encode k entry.1 entry.2 offset.toNat)
        (position + (k.data entry.2).length) rest

/-- The image of a database, whose positions are checked one by one. -/
def serialize (d : Database k) : Except FormatError Bytes :=
  if maxEntries < d.size then .error .tooLarge
  else do
    let directoryEnd := Header.size + Slot.directorySize k d.size
    let (appInfoOffset, position) ←
      placeBlock (directoryEnd + d.gap.length) d.appInfo
    let (sortInfoOffset, position) ← placeBlock position d.sortInfo
    let (directory, finish) ←
      placeEntries (Bytes.bigEndian 2 d.size) position d.toList
    -- the end of the last entry must be an offset as well
    let _ ← offset? finish
    .ok ((d.header.withResource k.isResource).encode
        appInfoOffset sortInfoOffset
      ++ directory ++ d.gap ++ d.appInfo.getD [] ++ d.sortInfo.getD []
      ++ d.toList.flatMap fun entry => k.data entry.2)

/-- A pass over positions up to `finish` has a value, and fails only if that
    position is no offset. -/
def Foretells {α : Type} (finish : Nat) (pass : Except FormatError α)
    (value : α) : Prop :=
  pass = .ok value ∨ (2 ^ 32 ≤ finish ∧ pass = .error .tooLarge)

theorem Foretells.bind {α β : Type} {middle finish : Nat}
    {first : Except FormatError α} {next : α → Except FormatError β}
    {a : α} {b : β} (before : Foretells middle first a)
    (le : middle ≤ finish) (after : Foretells finish (next a) b) :
    Foretells finish (first >>= next) b := by
  obtain rfl | ⟨large, rfl⟩ := before
  · exact after
  · exact Or.inr ⟨Nat.le_trans large le, rfl⟩

/-- A pass over positions up to the last one adds nothing to its check. -/
theorem Foretells.bind_eq {α β : Type} {middle finish : Nat}
    {first : Except FormatError α} {next : α → Except FormatError β}
    {a : α} {b : β} (before : Foretells middle first a)
    (le : middle ≤ finish)
    (after : next a = if finish < 2 ^ 32 then .ok b else .error .tooLarge) :
    first >>= next = if finish < 2 ^ 32 then .ok b else .error .tooLarge := by
  obtain rfl | ⟨large, rfl⟩ := before
  · exact after
  · rw [if_neg (Nat.not_lt_of_le (Nat.le_trans large le))]
    rfl

theorem foretells_offset? (position : Nat) :
    Foretells position (offset? position) position.toUInt32 := by
  rw [offset?]
  by_cases small : position < 2 ^ 32
  · rw [if_pos small]
    exact Or.inl rfl
  · rw [if_neg small]
    exact Or.inr ⟨Nat.le_of_not_lt small, rfl⟩

theorem foretells_placeBlock (position : Nat) (block : Option Bytes) :
    Foretells (position + blockLength block) (placeBlock position block)
      (blockOffset block position, position + blockLength block) := by
  cases block with
  | none => exact Or.inl rfl
  | some block =>
      exact (foretells_offset? position).bind (Nat.le_add_right _ _)
        (Or.inl rfl)

/-- The slots of the entries are those with the starts of their data. -/
theorem foretells_placeEntries (directory : Bytes) (position : Nat)
    (entries : List (k.Key × k.Value)) :
    Foretells (position + (entries.map fun e => (k.data e.2).length).sum)
      (placeEntries directory position entries)
      (directory ++ (entries.zip (startsFrom position
          (entries.map fun e => (k.data e.2).length))).flatMap
            (fun e => Slot.encode k e.1.1 e.1.2 e.2),
        position + (entries.map fun e => (k.data e.2).length).sum) := by
  induction entries generalizing directory position with
  | nil =>
      refine Or.inl ?_
      rw [List.zip_nil_left, List.flatMap_nil, List.append_nil]
      rfl
  | cons e entries ih =>
      rw [placeEntries, offset?, List.map_cons, List.sum_cons, ← Nat.add_assoc]
      by_cases small : position < 2 ^ 32
      · have rest := ih (directory ++ Slot.encode k e.1 e.2 position)
          (position + (k.data e.2).length)
        rw [if_pos small]
        show Foretells _ (placeEntries
          (directory ++ Slot.encode k e.1 e.2 position.toUInt32.toNat) _ _) _
        rwa [Bytes.toNat_toUInt32_of_lt small, startsFrom, List.zip_cons_cons,
          List.flatMap_cons, ← List.append_assoc]
      · rw [if_neg small]
        exact Or.inr ⟨by omega, rfl⟩

end Stepwise

theorem length_toList (d : Database k) : d.toList.length = d.size :=
  Std.ExtTreeMap.length_toList

theorem map_length_dataList (d : Database k) :
    d.dataList.map List.length
      = d.toList.map fun e => (k.data e.2).length := by
  rw [dataList, List.map_map]
  rfl

theorem flatten_dataList (d : Database k) :
    d.dataList.flatten = d.toList.flatMap fun e => k.data e.2 :=
  (List.flatMap_def ..).symm

/-- The parts start in their order. -/
theorem starts_le (d : Database k) :
    d.appInfoStart ≤ d.sortInfoStart ∧ d.sortInfoStart ≤ d.dataStart
      ∧ d.dataStart ≤ d.imageSize :=
  ⟨Nat.le_add_right _ _, Nat.le_add_right _ _, Nat.le_add_right _ _⟩

namespace Stepwise

/-- The directory that the entries are placed in is the one of the image. -/
theorem foretells_directory (d : Database k) :
    Foretells d.imageSize
      (placeEntries (Bytes.bigEndian 2 d.toList.length) d.dataStart d.toList)
      (d.directoryImage, d.imageSize) := by
  have pass := foretells_placeEntries (Bytes.bigEndian 2 d.toList.length)
    d.dataStart d.toList
  rwa [← map_length_dataList, ← imageSize_eq_sum] at pass

/-- **The checks of all offsets are one check of the size.**  The writer
    fails only if there are too many entries or the end of the image is no
    offset, and else writes every offset as it was foretold. -/
theorem serialize_eq (d : Database k) : serialize d = d.serialize := by
  rw [serialize, Database.serialize]
  by_cases many : maxEntries < d.size
  · rw [if_pos many, if_neg fun fits => ?_]
    rw [length_toList] at fits
    exact Nat.not_lt_of_le fits.1 many
  · have count : d.toList.length ≤ maxEntries :=
      d.length_toList ▸ Nat.le_of_not_lt many
    obtain ⟨-, sortSide, dataSide⟩ := d.starts_le
    rw [if_neg many]
    refine Eq.trans (b := if d.imageSize < 2 ^ 32 then .ok d.image
      else .error .tooLarge) ?_ ?_
    · rw [← length_toList]
      refine (foretells_placeBlock _ d.appInfo).bind_eq
        (Nat.le_trans sortSide dataSide) ?_
      refine (foretells_placeBlock _ d.sortInfo).bind_eq dataSide ?_
      refine (foretells_directory d).bind_eq (Nat.le_refl _) ?_
      rw [← flatten_dataList]
      show (offset? d.imageSize >>= fun _ => _) = _
      rw [offset?]
      split <;> rfl
    · by_cases small : d.imageSize < 2 ^ 32
      · rw [if_pos small, if_pos ⟨count, small⟩]
      · rw [if_neg small, if_neg fun fits => small fits.2]

end Stepwise

/-! ## What is laid out -/

/-- What the parts of a database take up, its header and directory among
    them. -/
def extent (d : Database k) : Nat :=
  76 + (2 + d.size * Slot.size k) + d.gap.length
    + (d.appInfo.getD []).length + (d.sortInfo.getD []).length
    + (d.toList.map fun e => (k.data e.2).length).sum

theorem imageSize_eq_extent (d : Database k) : d.imageSize = d.extent := by
  rw [imageSize_eq_sum, map_length_dataList, extent, ← length_toList]
  rfl

/-- Without entries there are the header, the count and the gap. -/
example : (new .resource Header.blank).extent = 80 := by rfl

/-- The bytes of every slot. -/
def slotImages (d : Database k) : List Bytes :=
  (d.toList.zip d.starts).map fun e => Slot.encode k e.1.1 e.1.2 e.2

theorem flatten_slotImages (d : Database k) :
    d.slotImages.flatten = d.slotsImage :=
  (List.flatMap_def ..).symm

/-- What stands in front of AppInfo, with this header and these slots. -/
def beforeAppInfo (d : Database k) (header : Bytes) (slots : List Bytes) :
    Bytes :=
  header ++ Bytes.bigEndian 2 d.size ++ slots.flatten ++ d.gap

/-- What stands in front of SortInfo. -/
def beforeSortInfo (d : Database k) (header : Bytes) (slots : List Bytes) :
    Bytes :=
  d.beforeAppInfo header slots ++ d.appInfo.getD []

/-- What stands in front of the data of the entry with this index. -/
def beforeData (d : Database k) (header : Bytes) (slots : List Bytes)
    (i : Nat) : Bytes :=
  d.beforeSortInfo header slots ++ d.sortInfo.getD []
    ++ (d.toList.take i).flatMap fun e => k.data e.2

/-- An image with this header and these slots is laid out. -/
structure IsLaidOut (d : Database k) (header : Bytes) (slots : List Bytes)
    (image : Bytes) : Prop where
  /-- The parts follow each other, and there is nothing else. -/
  image_eq : image = d.beforeSortInfo header slots ++ d.sortInfo.getD []
    ++ d.toList.flatMap fun e => k.data e.2
  header_length : header.length = 76
  slot_length : ∀ slot ∈ slots, slot.length = Slot.size k
  /-- There is one slot for each key, in the order of the keys' bytes. -/
  keys : slots.map (fun slot => (Slot.decode k slot).key) = d.keys
  ascending : d.keys.Pairwise fun a b => k.rank a < k.rank b
  mem_keys : ∀ key, key ∈ d.keys ↔ d.contains key
  /-- Each offset is the position where the data of the entry start. -/
  offset_eq : ∀ i slot, slots[i]? = some slot →
    (Slot.decode k slot).offset.toNat = (d.beforeData header slots i).length
  offsets_le : slots.Pairwise fun a b =>
    (Slot.decode k a).offset ≤ (Slot.decode k b).offset
  /-- The header is the one of the database, with the flag of its kind. -/
  fields : (RawHeader.ofBytes image).header
    = d.header.withResource k.isResource
  appInfo_offset : (RawHeader.ofBytes image).appInfoOffset.toNat
    = if d.appInfo.isSome then (d.beforeAppInfo header slots).length else 0
  appInfo_absent : (RawHeader.ofBytes image).appInfoOffset = 0
    ↔ d.appInfo = none
  sortInfo_offset : (RawHeader.ofBytes image).sortInfoOffset.toNat
    = if d.sortInfo.isSome then (d.beforeSortInfo header slots).length else 0
  sortInfo_absent : (RawHeader.ofBytes image).sortInfoOffset = 0
    ↔ d.sortInfo = none
  nextDirectory : (RawHeader.ofBytes image).nextDirectory = 0

/-! ## Lengths in front of the parts -/

theorem length_beforeAppInfo (d : Database k) :
    (d.beforeAppInfo d.headerImage d.slotImages).length = d.appInfoStart := by
  rw [beforeAppInfo, flatten_slotImages, List.length_append,
    List.length_append, List.length_append, length_headerImage,
    Bytes.length_bigEndian, length_slotsImage]
  show _ = Header.size + (2 + _) + _
  omega

theorem length_beforeSortInfo (d : Database k) :
    (d.beforeSortInfo d.headerImage d.slotImages).length
      = d.sortInfoStart := by
  rw [beforeSortInfo, List.length_append, length_beforeAppInfo]
  rfl

theorem length_beforeData (d : Database k) (i : Nat) :
    (d.beforeData d.headerImage d.slotImages i).length
      = d.dataStart + ((d.dataList.map List.length).take i).sum := by
  rw [beforeData, List.length_append, List.length_append,
    length_beforeSortInfo, List.length_flatMap, map_length_dataList,
    List.map_take]
  rfl

/-- The header's offset of a block is its position, which is not zero. -/
theorem toNat_blockOffset (block : Option Bytes) {start : Nat}
    (small : start < 2 ^ 32) :
    (blockOffset block start).toNat = if block.isSome then start else 0 := by
  cases block with
  | none => rfl
  | some block => exact Bytes.toNat_toUInt32_of_lt small

theorem blockOffset_eq_zero_iff {block : Option Bytes} {start : Nat}
    (pos : 0 < start) (small : start < 2 ^ 32) :
    blockOffset block start = 0 ↔ block = none := by
  rw [← UInt32.toNat_inj, toNat_blockOffset block small]
  cases block with
  | none => exact iff_of_true rfl rfl
  | some block => exact iff_of_false (Nat.ne_of_gt pos) nofun

/-! ## What is written -/

/-- The slots are read as the directory is. -/
theorem map_decode_slotImages {d : Database k} (h : d.Fits) :
    d.slotImages.map (Slot.decode k) = Image.directory k d.image := by
  rw [directory_image h, slotImages, List.map_map]
  exact List.map_congr_left fun e he =>
    Slot.decode_encode k e.1 (lt_of_mem_starts h (List.of_mem_zip he).2)

theorem map_key_slotImages {d : Database k} (h : d.Fits) :
    d.slotImages.map (fun slot => (Slot.decode k slot).key) = d.keys := by
  have entries := List.map_fst_zip (Nat.le_of_eq d.length_starts.symm)
  calc d.slotImages.map (fun slot => (Slot.decode k slot).key)
      = (Image.directory k d.image).map Slot.key := by
        rw [← map_decode_slotImages h, List.map_map]
        rfl
    _ = ((d.toList.zip d.starts).map Prod.fst).map Prod.fst := by
        rw [directory_image h, List.map_map, List.map_map]
        rfl
    _ = d.keys := congrArg _ entries

theorem map_offset_slotImages {d : Database k} (h : d.Fits) :
    d.slotImages.map (fun slot => (Slot.decode k slot).offset.toNat)
      = d.starts := by
  rw [← offsets_image h, ← map_decode_slotImages h, List.map_map]
  rfl

theorem mem_keys_iff (d : Database k) (key : k.Key) :
    key ∈ d.keys ↔ d.contains key := by
  show key ∈ d.entries.toList.map Prod.fst ↔ _
  rw [Std.ExtTreeMap.map_fst_toList_eq_keys, Std.ExtTreeMap.mem_keys,
    Std.ExtTreeMap.mem_iff_contains]
  rfl

theorem start_le_of_mem_startsFrom {position start : Nat}
    {lengths : List Nat} (h : start ∈ startsFrom position lengths) :
    position ≤ start := by
  obtain ⟨i, found⟩ := List.mem_iff_getElem?.mp h
  rw [getElem?_startsFrom found]
  exact Nat.le_add_right _ _

/-- No block starts before the one in front of it. -/
theorem pairwise_startsFrom (position : Nat) (lengths : List Nat) :
    (startsFrom position lengths).Pairwise (· ≤ ·) := by
  induction lengths generalizing position with
  | nil => exact List.Pairwise.nil
  | cons length lengths ih =>
      refine List.Pairwise.cons (fun start later => ?_) (ih _)
      exact Nat.le_trans (Nat.le_add_right _ _)
        (start_le_of_mem_startsFrom later)

/-- The positions of the side blocks lie behind the header and fit into an
    offset. -/
theorem sides_lt {d : Database k} (h : d.Fits) :
    0 < d.appInfoStart ∧ d.appInfoStart ≤ d.sortInfoStart
      ∧ d.sortInfoStart < 2 ^ 32 := by
  have behind : Header.size ≤ d.appInfoStart :=
    Nat.le_trans (Nat.le_add_right _ _) (Nat.le_add_right _ _)
  obtain ⟨appSide, sortSide, dataSide⟩ := d.starts_le
  exact ⟨Nat.lt_of_lt_of_le (by decide) behind, appSide,
    Nat.lt_of_le_of_lt (Nat.le_trans sortSide dataSide) h.size⟩

theorem isLaidOut_image {d : Database k} (h : d.Fits) :
    IsLaidOut d d.headerImage d.slotImages d.image where
  image_eq := by
    simp only [image_eq, beforeSortInfo, beforeAppInfo, flatten_slotImages,
      frontImage, flatten_dataList, length_toList, List.append_assoc]
  header_length := d.length_headerImage
  slot_length := by
    intro slot listed
    obtain ⟨e, -, rfl⟩ := List.mem_map.mp listed
    exact Slot.length_encode ..
  keys := map_key_slotImages h
  ascending := List.pairwise_map.mpr d.pairwise_toList
  mem_keys := d.mem_keys_iff
  offset_eq := by
    intro i slot found
    have start : d.starts[i]? = some (Slot.decode k slot).offset.toNat := by
      rw [← map_offset_slotImages h, List.getElem?_map, found]
      rfl
    rw [length_beforeData]
    exact getElem?_startsFrom start
  offsets_le := by
    have starts := pairwise_startsFrom d.dataStart
      (d.dataList.map List.length)
    rw [← Database.starts, ← map_offset_slotImages h] at starts
    exact (List.pairwise_map.mp starts).imp UInt32.le_iff_toNat_le.mpr
  fields := by rw [ofBytes_image]
  appInfo_offset := by
    rw [ofBytes_image, length_beforeAppInfo]
    obtain ⟨-, le, small⟩ := sides_lt h
    exact toNat_blockOffset _ (Nat.lt_of_le_of_lt le small)
  appInfo_absent := by
    rw [ofBytes_image]
    obtain ⟨pos, le, small⟩ := sides_lt h
    exact blockOffset_eq_zero_iff pos (Nat.lt_of_le_of_lt le small)
  sortInfo_offset := by
    rw [ofBytes_image, length_beforeSortInfo]
    exact toNat_blockOffset _ (sides_lt h).2.2
  sortInfo_absent := by
    rw [ofBytes_image]
    obtain ⟨pos, le, small⟩ := sides_lt h
    exact blockOffset_eq_zero_iff (Nat.lt_of_lt_of_le pos le) small
  nextDirectory := by rw [ofBytes_image]

theorem fits_iff (d : Database k) :
    d.Fits ↔ ¬ (65535 < d.size ∨ 2 ^ 32 ≤ d.extent) := by
  rw [not_or, Nat.not_lt, Nat.not_le, ← imageSize_eq_extent, ← length_toList]
  exact ⟨fun fits => ⟨fits.count, fits.size⟩, fun fits => ⟨fits.1, fits.2⟩⟩

/-- **A database is laid out or too large.**  Whether offsets are checked one
    by one or with the whole size, writing fails exactly if the entries are
    more than a count of 16 bits tells or the parts take up more than offsets
    of 32 bits reach.  Every other database becomes an image in which the
    parts follow each other and each is where its offset says. -/
theorem serialize_outcome (d : Database k) :
    Stepwise.serialize d = d.serialize
      ∧ (d.serialize = .error .tooLarge
        ↔ 65535 < d.size ∨ 2 ^ 32 ≤ d.extent)
      ∧ (d.serialize = .error .tooLarge
        ∨ ∃ header slots image, d.serialize = .ok image
          ∧ IsLaidOut d header slots image) := by
  refine ⟨Stepwise.serialize_eq d, ?_⟩
  by_cases fits : d.Fits
  · have written := serialize_eq_ok_iff.mpr ⟨fits, rfl⟩
    rw [written]
    refine ⟨iff_of_false nofun (d.fits_iff.mp fits), Or.inr ?_⟩
    exact ⟨_, _, _, rfl, isLaidOut_image fits⟩
  · have refused : d.serialize = .error .tooLarge :=
      if_neg fun small => fits ⟨small.1, small.2⟩
    have large := not_not.mp fun small => fits (d.fits_iff.mpr small)
    exact ⟨iff_of_true refused large, Or.inl refused⟩

end Database

end Handheld
