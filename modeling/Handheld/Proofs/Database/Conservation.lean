import Handheld.Proofs.Database.Canonical
import Handheld.Proofs.Database.Verdict

/-! # Conservation — to whom the bytes of an image belong

    The lengths of gap, side blocks and data are nowhere in an image.  They
    follow from where things start, so every byte after the directory belongs
    to one of them:

    • `storedAt` finds the data of a slot again in the database, and
      `Reads.map_storedAt` says that these are the pieces that were dealt
      out;
    • `takeBlock_isSome_iff` and `takeBlock_start` say when a side block is
      there and where it starts;
    • `IsApportioned` collects what has to hold, `parse_conserves` says that
      it holds of every image that is read. -/

namespace Handheld

variable {k : Kind}

/-- Each block starts where the lengths before it end. -/
theorem Database.getElem?_startsFrom {position i start : Nat}
    {lengths : List Nat} (h : (startsFrom position lengths)[i]? = some start) :
    start = position + (lengths.take i).sum := by
  induction lengths generalizing position i with
  | nil => cases h
  | cons length lengths ih =>
      cases i with
      | zero =>
          cases h
          rfl
      | succ i =>
          rw [startsFrom, List.getElem?_cons_succ] at h
          rw [ih h, List.take_succ_cons, List.sum_cons, Nat.add_assoc]

namespace Image

variable {image : Bytes} {d : Database k}

/-! ## Data -/

/-- The data that a database has under the key of a slot. -/
def storedAt (d : Database k) (slot : Slot k) : Bytes :=
  (d.get? slot.key).elim [] k.data

/-- The data of all slots in the order of the directory, one after the
    other. -/
def storedIn (d : Database k) (slots : List (Slot k)) : Bytes :=
  slots.flatMap (storedAt d)

namespace Reads

variable {first : Nat} {lengths : List Nat}

/-- An entry that was dealt out is found under its key. -/
theorem get?_of_mem (h : Reads image d first lengths)
    {entry : k.Key × k.Value}
    (member : entry ∈ entriesOf (directory k image)
      (listedData image first lengths)) :
    d.get? entry.1 = some entry.2 :=
  Std.ExtTreeMap.mem_toList_iff_getElem?_eq_some.mp
    (h.perm_toList.mem_iff.mpr member)

/-- The data under the keys of the slots are the pieces that were dealt
    out. -/
theorem map_storedAt (h : Reads image d first lengths) :
    (directory k image).map (storedAt d) = listedData image first lengths := by
  have keys := keys_entriesOf h.length_directory
  calc (directory k image).map (storedAt d)
      = ((directory k image).map Slot.key).map
          fun key => (d.get? key).elim [] k.data := by
        rw [List.map_map]
        rfl
    _ = (entriesOf (directory k image) (listedData image first lengths)).map
          fun e => (d.get? e.1).elim [] k.data := by
        rw [← keys, List.map_map]
        rfl
    _ = (entriesOf (directory k image) (listedData image first lengths)).map
          fun e => k.data e.2 := by
        refine List.map_congr_left fun e member => ?_
        rw [h.get?_of_mem member]
        rfl
    _ = listedData image first lengths := data_entriesOf h.length_directory

/-- The first data start where the directory says, or at the end of an image
    without slots. -/
theorem first_eq (h : Reads image d first lengths) :
    first = boundary (directory k image) image.length 0 := by
  have starts := h.starts
  have ends := h.ends
  cases slots : directory k image with
  | nil =>
      rw [slots] at starts
      cases lengths with
      | nil => exact ends
      | cons length lengths => cases starts
  | cons slot slots =>
      rw [slots] at starts
      cases lengths with
      | nil => cases starts
      | cons length lengths => exact (List.cons.inj starts).1.symm

/-- The data of a slot start at its offset: after those of the slots before
    it. -/
theorem offset_eq (h : Reads image d first lengths) {i : Nat} {slot : Slot k}
    (found : (directory k image)[i]? = some slot) :
    slot.offset.toNat
      = first + (storedIn d ((directory k image).take i)).length := by
  have start : (Database.startsFrom first lengths)[i]?
      = some slot.offset.toNat := by
    rw [← h.starts, List.getElem?_map, found]
    rfl
  have total : (storedIn d ((directory k image).take i)).length
      = (lengths.take i).sum := by
    rw [storedIn, List.flatMap_def, List.length_flatten, List.map_take,
      h.map_storedAt, List.map_take, h.map_length_listedData]
  rw [Database.getElem?_startsFrom start, total]

end Reads

/-! ## Side blocks -/

/-- A side block is there exactly if its offset is honoured. -/
theorem takeBlock_isSome_iff {start : Nat} {bytes before : Bytes}
    {offset : UInt32} {block : Option Bytes}
    (h : takeBlock start bytes offset = (block, before)) :
    block.isSome
      ↔ offset ≠ 0 ∧ start ≤ offset.toNat
        ∧ offset.toNat ≤ start + bytes.length := by
  rw [takeBlock] at h
  split at h
  case isTrue honoured =>
    obtain ⟨rfl, rfl⟩ := Prod.mk.inj h
    exact iff_of_true rfl (of_decide_eq_true honoured)
  case isFalse ignored =>
    obtain ⟨rfl, rfl⟩ := Prod.mk.inj h
    refine iff_of_false Bool.false_ne_true fun inside => ?_
    exact ignored (decide_eq_true inside)

/-- A side block that is there starts at its offset; without one nothing is
    cut off. -/
theorem takeBlock_start {start : Nat} {bytes before : Bytes}
    {offset : UInt32} {block : Option Bytes}
    (h : takeBlock start bytes offset = (block, before)) :
    start + before.length
      = if block.isSome then offset.toNat else start + bytes.length := by
  rw [takeBlock] at h
  split at h
  case isTrue honoured =>
    obtain ⟨rfl, rfl⟩ := Prod.mk.inj h
    obtain ⟨-, low, high⟩ := of_decide_eq_true honoured
    rw [List.length_take]
    show _ = offset.toNat
    omega
  case isFalse =>
    obtain ⟨rfl, rfl⟩ := Prod.mk.inj h
    rfl

/-! ## The whole image -/

/-- Where the bytes that are left to AppInfo and the gap end: at SortInfo if
    there is one, else at the data. -/
def appInfoLimit (image : Bytes) (d : Database k) : Nat :=
  if d.sortInfo.isSome then (RawHeader.ofBytes image).sortInfoOffset.toNat
  else boundary (directory k image) image.length 0

/-- How the bytes of an image after its directory belong to the parts of a
    database. -/
structure IsApportioned (image : Bytes) (d : Database k) : Prop where
  /-- No two slots have one key. -/
  distinct : ((directory k image).map Slot.key).Nodup
  /-- Just the keys of the slots have entries. -/
  stored : ∀ key, (d.get? key).isSome
    ↔ key ∈ (directory k image).map Slot.key
  /-- Every byte belongs to one part, in this order. -/
  body : image.drop (directoryEnd k image)
    = d.gap ++ d.appInfo.getD [] ++ d.sortInfo.getD []
      ++ storedIn d (directory k image)
  /-- The data of a slot start at its offset. -/
  data_start : ∀ i slot, (directory k image)[i]? = some slot →
    slot.offset.toNat = directoryEnd k image
      + (d.gap ++ d.appInfo.getD [] ++ d.sortInfo.getD []
        ++ storedIn d ((directory k image).take i)).length
  /-- SortInfo is there if its offset lies between directory and data. -/
  sortInfo_isSome : d.sortInfo.isSome
    ↔ (RawHeader.ofBytes image).sortInfoOffset ≠ 0
      ∧ directoryEnd k image
        ≤ (RawHeader.ofBytes image).sortInfoOffset.toNat
      ∧ (RawHeader.ofBytes image).sortInfoOffset.toNat
        ≤ boundary (directory k image) image.length 0
  /-- AppInfo is there if its offset lies in what is left then. -/
  appInfo_isSome : d.appInfo.isSome
    ↔ (RawHeader.ofBytes image).appInfoOffset ≠ 0
      ∧ directoryEnd k image
        ≤ (RawHeader.ofBytes image).appInfoOffset.toNat
      ∧ (RawHeader.ofBytes image).appInfoOffset.toNat
        ≤ appInfoLimit image d
  sortInfo_start : d.sortInfo.isSome →
    (RawHeader.ofBytes image).sortInfoOffset.toNat
      = directoryEnd k image + (d.gap ++ d.appInfo.getD []).length
  appInfo_start : d.appInfo.isSome →
    (RawHeader.ofBytes image).appInfoOffset.toNat
      = directoryEnd k image + d.gap.length

namespace Reads

variable {first : Nat} {lengths : List Nat}

/-- What lies in front of the data, and where it ends. -/
theorem front_eq (h : Reads image d first lengths) :
    Bytes.slice image (directoryEnd k image) (first - directoryEnd k image)
        = d.gap ++ d.appInfo.getD [] ++ d.sortInfo.getD []
      ∧ directoryEnd k image
        + (d.gap ++ d.appInfo.getD [] ++ d.sortInfo.getD []).length = first := by
  have front := h.sides_eq.1
  have lower := h.lower_le
  have ends := h.ends
  refine ⟨front, ?_⟩
  rw [← Database.frontImage, ← front, Bytes.length_slice (by omega)]
  omega

theorem body_eq (h : Reads image d first lengths) :
    image.drop (directoryEnd k image)
      = d.gap ++ d.appInfo.getD [] ++ d.sortInfo.getD []
        ++ storedIn d (directory k image) := by
  have data : storedIn d (directory k image) = image.drop first := by
    rw [storedIn, List.flatMap_def, h.map_storedAt]
    exact Bytes.flatten_fields_of_length h.length_drop
  have whole := Bytes.slice_append_drop image (directoryEnd k image)
    (first - directoryEnd k image)
  rw [Nat.add_sub_cancel' h.lower_le, h.front_eq.1, ← data] at whole
  exact whole.symm

theorem get?_isSome_iff (h : Reads image d first lengths) (key : k.Key) :
    (d.get? key).isSome ↔ key ∈ (directory k image).map Slot.key := by
  rw [← keys_entriesOf h.length_directory]
  constructor
  · intro found
    obtain ⟨value, found⟩ := Option.isSome_iff_exists.mp found
    have member : (key, value) ∈ d.toList :=
      Std.ExtTreeMap.mem_toList_iff_getElem?_eq_some.mpr found
    exact List.mem_map_of_mem (f := Prod.fst) (h.perm_toList.mem_iff.mp member)
  · intro listed
    obtain ⟨entry, member, rfl⟩ := List.mem_map.mp listed
    rw [h.get?_of_mem member]
    rfl

theorem isApportioned (h : Reads image d first lengths) :
    IsApportioned image d := by
  obtain ⟨before, cutSort, cutApp⟩ := h.sides
  have lower := h.lower_le
  have ends := h.ends
  have size : directoryEnd k image
      + (Bytes.slice image (directoryEnd k image)
        (first - directoryEnd k image)).length = first := by
    rw [Bytes.length_slice (by omega)]
    omega
  have limit : directoryEnd k image + before.length
      = appInfoLimit image d := by
    rw [takeBlock_start cutSort, size, h.first_eq]
    rfl
  have sortInfo := takeBlock_isSome_iff cutSort
  rw [size, h.first_eq] at sortInfo
  have appInfo := takeBlock_isSome_iff cutApp
  rw [limit] at appInfo
  refine ⟨?_, h.get?_isSome_iff, h.body_eq, ?_, sortInfo, appInfo, ?_, ?_⟩
  · rw [← keys_entriesOf h.length_directory]
    exact (index_eq_ok_iff.mp h.entries).1
  · intro i slot found
    rw [List.length_append, ← Nat.add_assoc, h.front_eq.2]
    exact h.offset_eq found
  · intro present
    rw [← (takeBlock_eq cutApp).1, takeBlock_start cutSort, if_pos present]
  · intro present
    rw [takeBlock_start cutApp, if_pos present]

end Reads

/-- **Every byte of an image belongs to one part.**  What comes after the
    directory of an image that is read is the gap, AppInfo, SortInfo and the
    data under the keys of the slots, in this order and each starting where
    the image says.  A side block is there exactly if its offset lies in what
    the parts after it leave. -/
theorem parse_conserves (h : parse k image = .ok d) :
    IsApportioned image d := by
  obtain ⟨first, lengths, reads⟩ := parse_eq_ok_iff.mp h
  exact reads.isApportioned

/-- Two resources that are listed in the wrong order, after a gap and both
    side blocks. -/
def unorderedImage : Bytes :=
  (Header.blank.withResource true).encode 99 101 ++ Bytes.bigEndian 2 2
    ++ Slot.encode .resource ⟨.ofChars 'c' 'o' 'd' 'e', 2⟩ [] 102
    ++ Slot.encode .resource ⟨.ofChars 'c' 'o' 'd' 'e', 1⟩ [] 103
    ++ [0xAA, 0x01, 0x02, 0x03, 0x07, 0x08]

/-- The database in that image. -/
def unorderedResources : Database .resource :=
  { Database.new .resource Header.blank with
    appInfo := some [0x01, 0x02]
    sortInfo := some [0x03]
    gap := [0xAA] }.insertAll
      [(⟨.ofChars 'c' 'o' 'd' 'e', 2⟩, [0x07]),
        (⟨.ofChars 'c' 'o' 'd' 'e', 1⟩, [0x08])]

theorem parse_conserves_unorderedImage :
    parse .resource unorderedImage = .ok unorderedResources
      ∧ IsApportioned unorderedImage unorderedResources
      ∧ unorderedImage.drop 98 = [0xAA] ++ [0x01, 0x02] ++ [0x03]
        ++ storedIn unorderedResources
          (directory .resource unorderedImage) := by
  have parsed : parse .resource unorderedImage = .ok unorderedResources := by
    rfl
  have apportioned := parse_conserves parsed
  exact ⟨parsed, apportioned, apportioned.body⟩

end Image

end Handheld
