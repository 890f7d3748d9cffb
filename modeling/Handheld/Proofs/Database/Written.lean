import Handheld.Proofs.Database.Reading

/-! # Written images — what is read from a database that was written

    The image of a database is its header, the count and the slots of its
    directory, the gap and the side blocks, and the data.  Each part is
    found again at its place:

    • `ofBytes_image`, `slotCount_image` and `directory_image` for header and
      directory, `drop_dataStart_image` for the data;
    • `reads_image`: the image is read as `normalize d`, which is `d` with
      the resource flag of its kind and with the attribute bytes of its
      records split anew. -/

namespace Handheld

variable {k : Kind}

/-! ## The resource flag -/

namespace Attributes

private theorem or_and_absorb (a b : UInt16) : a ||| (a &&& b) = a := by
  refine UInt16.toBitVec_inj.mp ?_
  ext i
  simpa using fun set _ => set

private theorem and_or_absorb (a b : UInt16) : (a ||| b) &&& b = b := by
  refine UInt16.toBitVec_inj.mp ?_
  ext i
  simpa using fun set => Or.inr set

theorem isResource_withResource (a : Attributes) (resource : Bool) :
    (a.withResource resource).isResource = resource := by
  cases resource with
  | true => exact decide_eq_true (and_or_absorb a.bits 1)
  | false =>
      have clear : (a.bits &&& 0xFFFE) &&& 1 = 0 := by
        rw [UInt16.and_assoc]
        exact UInt16.and_zero
      show decide ((a.bits &&& 0xFFFE) &&& 1 = 1) = false
      rw [clear]
      rfl

/-- The lowest bit is one or zero. -/
private theorem and_one_eq_zero {a : UInt16} (h : ¬ a &&& 1 = 1) :
    a &&& 1 = 0 := by
  have bit : (a &&& 1).toNat = a.toNat % 2 := by
    rw [UInt16.toNat_and]
    exact Nat.and_one_is_mod a.toNat
  have ne : ¬ (a &&& 1).toNat = 1 := fun e => h (UInt16.toNat_inj.mp e)
  refine UInt16.toNat_inj.mp ?_
  show (a &&& 1).toNat = 0
  omega

/-- A flag that is as it should be is not changed. -/
theorem withResource_eq_self {a : Attributes} {resource : Bool}
    (h : a.isResource = resource) : a.withResource resource = a := by
  obtain ⟨bits⟩ := a
  subst h
  by_cases set : bits &&& 1 = 1
  · have flag : isResource ⟨bits⟩ = true := decide_eq_true set
    have same : bits ||| 1 = bits := by
      conv => lhs; rw [← set]
      exact or_and_absorb bits 1
    rw [flag, withResource, if_pos rfl, same]
  · have flag : isResource ⟨bits⟩ = false := decide_eq_false set
    have same : bits &&& 0xFFFE = bits := by
      -- nothing is lost with the lowest bit
      have whole : (bits &&& 0xFFFE) ||| (bits &&& 1) = bits := by
        refine UInt16.toNat_inj.mp ?_
        rw [UInt16.toNat_or, UInt16.toNat_and, UInt16.toNat_and,
          ← Nat.and_or_distrib_left]
        exact (Nat.and_two_pow_sub_one_eq_mod bits.toNat 16).trans
          (Nat.mod_eq_of_lt bits.toNat_lt)
      rwa [and_one_eq_zero set, UInt16.or_zero] at whole
    rw [flag, withResource, if_neg Bool.false_ne_true, same]

end Attributes

theorem Header.withResource_eq_self {h : Header} {resource : Bool}
    (flag : h.isResource = resource) : h.withResource resource = h := by
  rw [Header.withResource, Attributes.withResource_eq_self flag]

/-! ## Normal databases -/

namespace Database

/-- A database as it is read back: the resource flag follows the kind, and
    the attribute bytes of records are split anew. -/
def normalize (d : Database k) : Database k where
  header := d.header.withResource k.isResource
  appInfo := d.appInfo
  sortInfo := d.sortInfo
  gap := d.gap
  entries := d.entries.map fun _ value => k.resplit value

theorem toList_normalize (d : Database k) :
    d.normalize.entries.toList
      = d.toList.map fun e => (e.1, k.resplit e.2) :=
  Std.ExtTreeMap.toList_map

/-- A database with the flag of its kind, in which no attributes use the
    bits of the category, is read back as it is. -/
theorem normalize_eq_self {d : Database k}
    (flag : d.header.isResource = k.isResource)
    (split : ∀ e ∈ d.toList, k.IsSplit e.2) : d.normalize = d := by
  have entries : d.normalize.entries = d.entries := by
    refine Std.ExtTreeMap.toList_inj.mp ?_
    rw [toList_normalize]
    refine (List.map_congr_left fun e he => ?_).trans (List.map_id d.toList)
    rw [Kind.resplit_eq_self (split e he)]
    rfl
  obtain ⟨header, appInfo, sortInfo, gap, _⟩ := d
  rw [normalize, Header.withResource_eq_self flag]
  exact congrArg _ entries

/-! ## The parts of an image -/

/-- The slots of the directory as they are written. -/
def slotsImage (d : Database k) : Bytes :=
  (d.toList.zip d.starts).flatMap fun e => Slot.encode k e.1.1 e.1.2 e.2

/-- What is written between the directory and the data. -/
def frontImage (d : Database k) : Bytes :=
  d.gap ++ d.appInfo.getD [] ++ d.sortInfo.getD []

theorem image_eq (d : Database k) :
    d.image = d.headerImage ++ (Bytes.bigEndian 2 d.toList.length
      ++ (d.slotsImage ++ (d.frontImage ++ d.dataList.flatten))) := by
  simp only [image, directoryImage, slotsImage, frontImage,
    List.append_assoc]

theorem length_headerImage (d : Database k) :
    d.headerImage.length = Header.size :=
  Header.length_encode _ _ _

theorem length_starts (d : Database k) :
    d.starts.length = d.toList.length := by
  rw [starts, length_startsFrom, dataList, List.length_map, List.length_map]

theorem length_slotsImage (d : Database k) :
    d.slotsImage.length = d.toList.length * Slot.size k := by
  have length : (d.toList.zip d.starts).length = d.toList.length := by
    rw [List.length_zip, d.length_starts, Nat.min_self]
  rw [slotsImage, List.length_flatMap, ← length]
  generalize d.toList.zip d.starts = entries
  induction entries with
  | nil => simp
  | cons e entries ih =>
      rw [List.map_cons, List.sum_cons, ih, Slot.length_encode,
        List.length_cons, Nat.succ_mul, Nat.add_comm]

theorem length_frontImage (d : Database k) :
    d.directoryEnd + d.frontImage.length = d.dataStart := by
  simp only [frontImage, dataStart, sortInfoStart, appInfoStart, blockLength,
    List.length_append]
  omega

theorem imageSize_eq_sum (d : Database k) :
    d.imageSize = d.dataStart + (d.dataList.map List.length).sum := by
  rw [imageSize, List.length_flatten]

theorem length_image (d : Database k) : d.image.length = d.imageSize := by
  have front := d.length_frontImage
  simp only [image_eq, List.length_append, length_headerImage,
    Bytes.length_bigEndian, length_slotsImage, List.length_flatten, imageSize]
  rw [directoryEnd, Slot.directorySize, Slot.countSize] at front
  omega

/-- A database whose image can be written. -/
structure Fits (d : Database k) : Prop where
  count : d.toList.length ≤ maxEntries
  size : d.imageSize < 2 ^ 32

theorem serialize_eq_ok_iff {d : Database k} {image : Bytes} :
    d.serialize = .ok image ↔ d.Fits ∧ d.image = image := by
  rw [serialize]
  by_cases fits : d.toList.length ≤ maxEntries ∧ d.imageSize < 0x1_0000_0000
  · rw [if_pos fits, Except.ok.injEq]
    constructor
    · rintro rfl
      exact ⟨⟨fits.1, fits.2⟩, rfl⟩
    · rintro ⟨-, rfl⟩
      rfl
  · rw [if_neg fits]
    constructor
    · nofun
    · rintro ⟨h, -⟩
      exact absurd ⟨h.count, h.size⟩ fits

/-! ## Reading a written image -/

/-- The header of an image. -/
theorem ofBytes_image (d : Database k) :
    RawHeader.ofBytes d.image
      = ⟨d.header.withResource k.isResource,
          blockOffset d.appInfo d.appInfoStart,
          blockOffset d.sortInfo d.sortInfoStart, 0⟩ := by
  rw [image_eq, headerImage, RawHeader.ofBytes_encode]

theorem slotCount_image {d : Database k} (h : d.Fits) :
    Image.slotCount d.image = d.toList.length := by
  have window : Bytes.slice d.image Header.size Slot.countSize
      = Bytes.bigEndian 2 d.toList.length :=
    Bytes.slice_eq_of_append d.image_eq d.length_headerImage
      (Bytes.length_bigEndian _ _)
  have small : d.toList.length < 256 ^ 2 :=
    Nat.lt_of_le_of_lt h.count (by decide)
  rw [Image.slotCount, Bytes.word, window, Bytes.value_bigEndian_of_lt small]

theorem directoryEnd_image {d : Database k} (h : d.Fits) :
    Image.directoryEnd k d.image = d.directoryEnd := by
  rw [Image.directoryEnd, slotCount_image h, directoryEnd]

/-- The data of entries start inside the image. -/
theorem lt_of_mem_starts {d : Database k} (h : d.Fits) {start : Nat}
    (hs : start ∈ d.starts) : start < 2 ^ 32 :=
  Nat.lt_of_le_of_lt (le_of_mem_startsFrom hs)
    (d.imageSize_eq_sum ▸ h.size)

/-- The slots of an image. -/
theorem directory_image {d : Database k} (h : d.Fits) :
    Image.directory k d.image
      = (d.toList.zip d.starts).map fun e => Slot.ofEntry k e.1 e.2 := by
  have after : d.image.drop (Header.size + Slot.countSize)
      = d.slotsImage ++ (d.frontImage ++ d.dataList.flatten) := by
    rw [image_eq, ← List.append_assoc]
    refine List.drop_left' ?_
    rw [List.length_append, length_headerImage, Bytes.length_bigEndian]
    rfl
  have count : (d.toList.zip d.starts).length = d.toList.length := by
    rw [List.length_zip, d.length_starts, Nat.min_self]
  rw [Image.directory, slotCount_image h, after, ← count]
  exact Slot.slots_flatMap_encode k _ _ fun e he =>
    lt_of_mem_starts h (List.of_mem_zip he).2

/-- What lies between the directory and the data of an image. -/
theorem slice_directoryEnd_image (d : Database k) :
    Bytes.slice d.image d.directoryEnd (d.dataStart - d.directoryEnd)
      = d.frontImage := by
  have split : d.image = (d.headerImage
      ++ (Bytes.bigEndian 2 d.toList.length ++ d.slotsImage))
        ++ (d.frontImage ++ d.dataList.flatten) := by
    simp only [image_eq, List.append_assoc]
  refine Bytes.slice_eq_of_append split ?_ ?_
  · rw [List.length_append, List.length_append, length_headerImage,
      Bytes.length_bigEndian, length_slotsImage]
    rfl
  · rw [← d.length_frontImage, Nat.add_sub_cancel_left]

/-- The data of an image. -/
theorem drop_dataStart_image (d : Database k) :
    d.image.drop d.dataStart = d.dataList.flatten := by
  have split : d.image = (d.headerImage ++ (Bytes.bigEndian 2 d.toList.length
      ++ (d.slotsImage ++ d.frontImage))) ++ d.dataList.flatten := by
    simp only [image_eq, List.append_assoc]
  rw [split]
  refine List.drop_left' ?_
  rw [List.length_append, List.length_append, List.length_append,
    length_headerImage, Bytes.length_bigEndian, length_slotsImage,
    ← d.length_frontImage, directoryEnd, Slot.directorySize, Slot.countSize]
  omega

/-- Slots that are read and the data of their entries make up the entries,
    with the attribute bytes split anew. -/
theorem entriesOf_ofEntry (entries : List (k.Key × k.Value))
    {starts : List Nat} (h : starts.length = entries.length) :
    Image.entriesOf
        ((entries.zip starts).map fun e => Slot.ofEntry k e.1 e.2)
        (entries.map fun e => k.data e.2)
      = entries.map fun e => (e.1, k.resplit e.2) := by
  induction entries generalizing starts with
  | nil => rfl
  | cons e entries ih =>
      obtain _ | ⟨start, starts⟩ := starts
      · cases h
      · have value : k.withData (k.withData (k.resplit e.2) []) (k.data e.2)
            = k.resplit e.2 := by
          rw [Kind.withData_withData, ← k.data_resplit, Kind.withData_data]
        have rest := ih (Nat.succ.inj h)
        rw [Image.entriesOf] at rest
        rw [Image.entriesOf, List.zip_cons_cons, List.map_cons, List.map_cons,
          List.zipWith_cons_cons, rest, Slot.ofEntry, value, List.map_cons]

theorem directoryEnd_le_dataStart (d : Database k) :
    d.directoryEnd ≤ d.dataStart :=
  d.length_frontImage ▸ Nat.le_add_right _ _

/-- An image can be opened: its directory is whole and its flag is right. -/
theorem isOpened_image {d : Database k} (h : d.Fits) :
    Image.IsOpened k d.image where
  inside := by
    have ends := d.directoryEnd_le_dataStart
    have size : d.dataStart ≤ d.imageSize := Nat.le_add_right _ _
    rw [directoryEnd_image h, length_image]
    omega
  noFurther := by rw [ofBytes_image]
  isResource := by
    rw [ofBytes_image]
    exact Attributes.isResource_withResource _ _

/-- The offsets of the slots are the starts of the data, as they all fit into
    an offset. -/
theorem offsets_image {d : Database k} (h : d.Fits) :
    (Image.directory k d.image).map (fun slot => slot.offset.toNat)
      = d.starts := by
  rw [directory_image h, List.map_map]
  refine Eq.trans (List.map_congr_left (g := Prod.snd) fun e he => ?_)
    (List.map_snd_zip (Nat.le_of_eq d.length_starts))
  exact Bytes.toNat_toUInt32_of_lt (lt_of_mem_starts h (List.of_mem_zip he).2)

/-- The front of an image is cut at the offsets of its header into the gap
    and the two information blocks. The sort information is cut off first. -/
theorem takeBlock_image {d : Database k} (h : d.Fits) :
    ∃ before,
      Image.takeBlock d.directoryEnd
          (Bytes.slice d.image d.directoryEnd (d.dataStart - d.directoryEnd))
          (RawHeader.ofBytes d.image).sortInfoOffset = (d.sortInfo, before)
        ∧ Image.takeBlock d.directoryEnd before
          (RawHeader.ofBytes d.image).appInfoOffset = (d.appInfo, d.gap) := by
  have small := h.size
  have size : d.dataStart ≤ d.imageSize := Nat.le_add_right _ _
  have sortSide : d.sortInfoStart ≤ d.dataStart := Nat.le_add_right _ _
  have appSide : d.appInfoStart ≤ d.sortInfoStart := Nat.le_add_right _ _
  -- an offset of zero stands for a block that is not there
  have pos : 0 < d.directoryEnd :=
    Nat.lt_of_lt_of_le (by decide) (Nat.le_add_right Header.size _)
  have appInfo : d.directoryEnd + (d.gap ++ d.appInfo.getD []).length
      = d.sortInfoStart := by
    rw [List.length_append, ← Nat.add_assoc]
    rfl
  rw [slice_directoryEnd_image, ofBytes_image]
  refine ⟨d.gap ++ d.appInfo.getD [], ?_, ?_⟩
  · have cut := Image.takeBlock_append d.sortInfo pos
      (show d.directoryEnd + (d.gap ++ d.appInfo.getD []).length < 2 ^ 32
        by omega)
    rwa [appInfo] at cut
  · exact Image.takeBlock_append d.appInfo pos
      (show d.directoryEnd + d.gap.length < 2 ^ 32 from
        Nat.lt_of_le_of_lt appSide (by omega))

/-- The entries of an image are those of its database in normal form. -/
theorem index_image {d : Database k} (h : d.Fits) :
    Image.index ∅ (Image.entriesOf (Image.directory k d.image)
        (Bytes.fields (d.dataList.map List.length)
          (d.image.drop d.dataStart)))
      = .ok d.normalize.entries := by
  have fields : Bytes.fields (d.dataList.map List.length)
      (d.image.drop d.dataStart) = d.dataList := by
    have back := Bytes.fields_flatten d.dataList []
    rwa [List.append_nil, ← drop_dataStart_image] at back
  rw [fields, directory_image h, dataList,
    entriesOf_ofEntry d.toList d.length_starts, ← toList_normalize]
  exact Image.index_toList _

/-- Every field is read as the normal form of the database has it. -/
theorem reads_image {d : Database k} (h : d.Fits) :
    Image.Reads d.image d.normalize d.dataStart
      (d.dataList.map List.length) where
  opened := isOpened_image h
  count := by
    rw [slotCount_image h, dataList, List.length_map, List.length_map]
  lower_le := by
    rw [directoryEnd_image h]
    exact d.directoryEnd_le_dataStart
  starts := offsets_image h
  ends := by
    rw [length_image, imageSize_eq_sum]
  header := by
    rw [ofBytes_image]
    rfl
  sides := by
    rw [directoryEnd_image h]
    exact takeBlock_image h
  entries := index_image h

/-- An image is read as its database in normal form. -/
theorem parse_image {d : Database k} (h : d.Fits) :
    Image.parse k d.image = .ok d.normalize :=
  (reads_image h).parse_eq

end Database

end Handheld
