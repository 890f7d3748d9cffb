import Handheld.Proofs.Database.Directory

/-! # Reading — what an image says

    An image that is read is a header, a directory, what lies in front of
    the data, and the data.  `Reads` collects what has to hold of them:

    • `parse_eq_ok_iff`: an image is read as a database exactly if `Reads`
      holds of the two;
    • `takeBlock_append` and `takeBlock_eq` for a side block: a block that
      was put after other bytes is cut off again, and bytes that were cut
      were a block after other bytes. -/

namespace Handheld.Image

variable {k : Kind}

/-! ## Side blocks -/

/-- A block that follows other bytes is cut off them, also if it is empty or
    absent. -/
theorem takeBlock_append {start : Nat} {before : Bytes} (block : Option Bytes)
    (pos : 0 < start) (small : start + before.length < 2 ^ 32) :
    takeBlock start (before ++ block.getD [])
        (Database.blockOffset block (start + before.length))
      = (block, before) := by
  cases block with
  | none => simp [takeBlock, isHonoured, Database.blockOffset]
  | some block =>
      have offset : (start + before.length).toUInt32.toNat
          = start + before.length := Bytes.toNat_toUInt32_of_lt small
      have nonzero : (start + before.length).toUInt32 ≠ 0 := by
        intro zero
        rw [zero] at offset
        have : (0 : UInt32).toNat = 0 := rfl
        omega
      have honoured : isHonoured start (before ++ block).length
          (start + before.length).toUInt32 = true := by
        simp only [isHonoured, offset, List.length_append, ne_eq, nonzero,
          not_false_eq_true, true_and, decide_eq_true_eq]
        omega
      rw [takeBlock, Option.getD_some, Database.blockOffset, if_pos honoured,
        offset, Nat.add_sub_cancel_left, List.drop_left, List.take_left]

/-- What is cut is a block that follows other bytes.  Its offset is the one
    given, unless that was ignored. -/
theorem takeBlock_eq {start : Nat} {bytes before : Bytes} {offset : UInt32}
    {block : Option Bytes} (h : takeBlock start bytes offset = (block, before)) :
    bytes = before ++ block.getD []
      ∧ (Database.blockOffset block (start + before.length) = offset
        ↔ (offset ≠ 0 → block.isSome)) := by
  rw [takeBlock] at h
  split at h
  case isTrue honoured =>
    obtain ⟨rfl, rfl⟩ := Prod.mk.inj h
    simp only [isHonoured, decide_eq_true_eq] at honoured
    have cut : start + (bytes.take (offset.toNat - start)).length
        = offset.toNat := by
      rw [List.length_take]
      omega
    refine ⟨(List.take_append_drop _ _).symm, fun _ _ => rfl, fun _ => ?_⟩
    rw [cut]
    exact UInt32.ofNat_toNat
  case isFalse =>
    obtain ⟨rfl, rfl⟩ := Prod.mk.inj h
    refine ⟨(List.append_nil _).symm, ?_, ?_⟩
    · rintro rfl nonzero
      exact absurd rfl nonzero
    · intro absent
      by_cases zero : offset = 0
      · exact zero.symm
      · cases absent zero

/-! ## Directories -/

/-- The number of slots in the directory of an image. -/
def slotCount (image : Bytes) : Nat :=
  Bytes.word image Header.size Slot.countSize

/-- The slots in the directory of an image. -/
def directory (k : Kind) (image : Bytes) : List (Slot k) :=
  Slot.slots k (slotCount image) (image.drop (Header.size + Slot.countSize))

/-- The slots of the directory, last one first. -/
theorem decodeAll_eq_reverse_directory (k : Kind) (image : Bytes) :
    Slot.decodeAll k [] (slotCount image)
        (image.drop (Header.size + Slot.countSize))
      = (directory k image).reverse := by
  rw [Slot.decodeAll_eq, List.append_nil, directory]

/-- Where the directory of an image ends. -/
def directoryEnd (k : Kind) (image : Bytes) : Nat :=
  Header.size + Slot.directorySize k (slotCount image)

/-- An image that starts with a header and a directory of a kind. -/
structure IsOpened (k : Kind) (image : Bytes) : Prop where
  inside : directoryEnd k image ≤ image.length
  noFurther : (RawHeader.ofBytes image).nextDirectory = 0
  isResource : (RawHeader.ofBytes image).header.isResource = k.isResource

/-- The opening of such an image. -/
def opening (k : Kind) (image : Bytes) : Opening :=
  ⟨RawHeader.ofBytes image, slotCount image, directoryEnd k image⟩

theorem openDirectory_eq_ok_iff {image : Bytes} {o : Opening} :
    openDirectory k image = .ok o
      ↔ IsOpened k image ∧ o = opening k image := by
  have size : Header.size + Slot.countSize ≤ directoryEnd k image :=
    Nat.add_le_add_left (Nat.le_add_right _ _) _
  rw [openDirectory, RawHeader.read]
  constructor
  · intro h
    split at h
    case h_1 => cases h
    case h_2 raw hraw =>
      split at hraw
      case isTrue => cases hraw
      case isFalse =>
        cases hraw
        split at h
        case isTrue => cases h
        case isFalse further =>
          split at h
          case isTrue => cases h
          case isFalse resource =>
            dsimp only at h
            split at h
            case isTrue => cases h
            case isFalse =>
              split at h
              case isTrue => cases h
              case isFalse inside =>
                cases h
                exact ⟨⟨Nat.le_of_not_lt inside, Decidable.not_not.mp further,
                  Decidable.not_not.mp resource⟩, rfl⟩
  · rintro ⟨⟨inside, further, resource⟩, rfl⟩
    have short : ¬ image.length < Header.size := by omega
    have noCount : ¬ image.length < Header.size + Slot.countSize := by omega
    have noSlots : ¬ image.length < directoryEnd k image :=
      Nat.not_lt.mpr inside
    simp only [short, if_false, further, ne_eq, not_true_eq_false, resource,
      noCount]
    exact if_neg noSlots

/-- What is measured are the slots of the directory. -/
theorem measure_directory_iff {image : Bytes} {first : Nat}
    {slots : List (Slot k × Nat)} (opened : IsOpened k image) :
    measure (directoryEnd k image) image.length []
        (Slot.decodeAll k [] (slotCount image)
          (image.drop (Header.size + Slot.countSize))) = .ok (first, slots)
      ↔ slots.map Prod.fst = directory k image
        ∧ IsMeasured (directoryEnd k image) image.length first slots := by
  rw [Slot.decodeAll_eq, List.append_nil, measure_eq_ok_iff opened.inside,
    List.reverse_reverse]
  constructor
  · rintro ⟨new, rfl, h⟩
    rw [List.append_nil]
    exact h
  · intro h
    exact ⟨slots, (List.append_nil _).symm, h⟩

theorem plan_eq_ok_iff {image : Bytes} {p : Plan k} :
    plan k image = .ok p
      ↔ IsOpened k image ∧ p.opening = opening k image
        ∧ p.slots.map Prod.fst = directory k image
        ∧ IsMeasured (directoryEnd k image) image.length p.firstData p.slots := by
  rw [plan]
  constructor
  · intro h
    split at h
    case h_1 => cases h
    case h_2 o ho =>
      obtain ⟨opened, rfl⟩ := openDirectory_eq_ok_iff.mp ho
      simp only at h
      split at h
      case h_1 => cases h
      case h_2 first slots hm =>
        cases h
        exact ⟨opened, rfl, (measure_directory_iff opened).mp hm⟩
  · rintro ⟨opened, start, slots⟩
    rw [openDirectory_eq_ok_iff.mpr ⟨opened, rfl⟩]
    have hm := (measure_directory_iff opened).mpr slots
    simp only [opening, hm]
    obtain ⟨o, first, slots⟩ := p
    cases start
    rfl

/-! ## Whole images -/

/-- What an image says that is read as a database whose data start at
    `first` and have these lengths. -/
structure Reads (image : Bytes) (d : Database k) (first : Nat)
    (lengths : List Nat) : Prop where
  opened : IsOpened k image
  count : lengths.length = slotCount image
  lower_le : directoryEnd k image ≤ first
  starts : (directory k image).map (fun slot => slot.offset.toNat)
    = Database.startsFrom first lengths
  ends : first + lengths.sum = image.length
  header : d.header = (RawHeader.ofBytes image).header
  sides : ∃ before,
    takeBlock (directoryEnd k image)
        (Bytes.slice image (directoryEnd k image)
          (first - directoryEnd k image))
        (RawHeader.ofBytes image).sortInfoOffset = (d.sortInfo, before)
      ∧ takeBlock (directoryEnd k image) before
        (RawHeader.ofBytes image).appInfoOffset = (d.appInfo, d.gap)
  entries : index ∅ (entriesOf (directory k image)
    (Bytes.fields lengths (image.drop first))) = .ok d.entries

/-- A database that is read is what its image says. -/
theorem reads_of_parse {image : Bytes} {d : Database k}
    (h : parse k image = .ok d) : ∃ first lengths, Reads image d first lengths := by
  rw [parse] at h
  split at h
  case h_1 => cases h
  case h_2 p hp =>
    obtain ⟨opened, start, slots, measured⟩ := plan_eq_ok_iff.mp hp
    split at h
    case h_1 => cases h
    case h_2 entries hi =>
      cases h
      rw [Plan.entries, deal_eq, slots] at hi
      refine ⟨p.firstData, p.slots.map Prod.snd, opened, ?_,
        measured.lower_le, ?_, measured.ends, by rw [start, opening], ?_, hi⟩
      · have count := congrArg List.length slots
        rw [directory, Slot.length_slots, List.length_map] at count
        rw [List.length_map, count]
      · rw [← slots, ← measured.starts, List.map_map]
        rfl
      · simp only [Plan.appInfo, Plan.sortInfo, Plan.front, start, opening]
        exact ⟨_, rfl, rfl⟩

/-- What an image says is read from it. -/
theorem Reads.parse_eq {image : Bytes} {d : Database k} {first : Nat}
    {lengths : List Nat} (h : Reads image d first lengths) :
    parse k image = .ok d := by
  obtain ⟨before, sortInfo, appInfo⟩ := h.sides
  have size : (directory k image).length = lengths.length := by
    rw [directory, Slot.length_slots, h.count]
  -- the lengths belong to the slots one by one
  have slots : ((directory k image).zip lengths).map Prod.fst
      = directory k image := List.map_fst_zip (Nat.le_of_eq size)
  have snd : ((directory k image).zip lengths).map Prod.snd = lengths :=
    List.map_snd_zip (Nat.le_of_eq size.symm)
  have measured : IsMeasured (directoryEnd k image) image.length first
      ((directory k image).zip lengths) := by
    refine ⟨h.lower_le, ?_, by rw [snd, h.ends]⟩
    rw [snd, ← h.starts, ← slots, List.map_map, slots]
    rfl
  have planned : plan k image
      = .ok ⟨opening k image, first, (directory k image).zip lengths⟩ :=
    plan_eq_ok_iff.mpr ⟨h.opened, rfl, slots, measured⟩
  have indexed : index ∅ (Plan.entries
      ⟨opening k image, first, (directory k image).zip lengths⟩ image)
        = .ok d.entries := by
    rw [Plan.entries, deal_eq, slots, snd]
    exact h.entries
  rw [parse, planned]
  dsimp only
  rw [indexed]
  simp only [Plan.appInfo, Plan.sortInfo, Plan.front, opening, sortInfo,
    appInfo, ← h.header]

/-- An image is read as what it says. -/
theorem parse_eq_ok_iff {image : Bytes} {d : Database k} :
    parse k image = .ok d ↔ ∃ first lengths, Reads image d first lengths := by
  constructor
  · intro h
    exact reads_of_parse h
  · rintro ⟨first, lengths, h⟩
    exact h.parse_eq

end Handheld.Image
