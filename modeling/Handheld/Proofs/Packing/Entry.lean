import Handheld.Proofs.Bytes
import Handheld.Proofs.Packing.Resources

/-! # Entry — where code goes that is started at its first byte

    The main code is started at its first byte.  If the entry point is
    further on, a branch stands there, which the processor reads by its own
    rules:

    • `Architecture.follow?` are these rules: where a processor goes on after
      the branch at an address.  `Enters` says that a branch in front of code
      goes to an offset in that code, and `Enters.le_reach` that none goes
      further than the reach of the architecture;
    • `entryBranch_of_le_reach` and its companions for the two refusals
      compare this with the branches that are made, and
      `isEntryBranch_iff` with what they tell;
    • `entry_outcome` puts them together, for branches and for packed
      executables.  `entryBranch_overshoots` is the one branch that goes
      astray. -/

namespace Handheld

/-! ## The processors' reading of a branch -/

/-- Where a 68000 goes on if the word at a place counts from that place, and
    what follows the word. -/
def followWord? (place : Int) : Bytes → Option (Int × Bytes)
  | high :: low :: rest =>
      some (place + (BitVec.ofNat 16 (Bytes.value [high, low])).toInt, rest)
  | _ => none

/-- Where a 68000 goes on after the branch that the code at an address begins
    with, and what follows that branch.  The displacement is a byte, which
    counts from two bytes after the address, or the next word if that byte is
    zero. -/
def follow68k? (address : Int) : Bytes → Option (Int × Bytes)
  | opcode :: displacement :: rest =>
      if opcode ≠ 0x60 ∨ displacement = 0xFF then none
      else if displacement = 0x00 then followWord? (address + 2) rest
      else
        some (address + 2 + (BitVec.ofNat 8 displacement.toNat).toInt, rest)
  | _ => none

/-- The same for an ARM, whose displacement counts words from eight bytes
    after the branch's address. -/
def followArm? (address : Int) : Bytes → Option (Int × Bytes)
  | low :: middle :: high :: opcode :: rest =>
      if opcode ≠ 0xEA then none
      else
        some (address + 8 + 4 * (BitVec.ofNat 24
          (Bytes.littleValue [low, middle, high])).toInt, rest)
  | _ => none

namespace Architecture

/-- Where a processor goes on after the branch that the code at an address
    begins with, and what follows that branch. -/
def follow? : Architecture → Int → Bytes → Option (Int × Bytes)
  | .m68k => follow68k?
  | .arm => followArm?

/-- The number of bytes to which instructions are aligned. -/
def instructionSize : Architecture → Nat
  | .m68k => 2
  | .arm => 4

/-- The furthest offset to which a branch in front of code goes. -/
def reach : Architecture → Nat
  | .m68k => 32765
  | .arm => 33554432

end Architecture

/-- In front of code at any address, this is one branch, and it goes to an
    offset in that code. -/
def Enters (a : Architecture) (branch : Bytes) (offset : Nat) : Prop :=
  ∀ (address : Int) (code : Bytes),
    a.follow? (address - branch.length) (branch ++ code)
      = some (address + offset, code)

/-! ## Displacements -/

/-- A number below half of the range has no sign. -/
theorem toInt_ofNat_of_lt {width n : Nat} (h : 2 * n < 2 ^ width) :
    (BitVec.ofNat width n).toInt = n := by
  have small : n % 2 ^ width = n := Nat.mod_eq_of_lt (by omega)
  rw [BitVec.toInt_eq_toNat_of_lt, BitVec.toNat_ofNat, small]
  rwa [BitVec.toNat_ofNat, small]

/-- The opcode of an ARM is the most significant byte, which comes last. -/
theorem littleEndian_opcode {opcode n : Nat} (h : n < 256 ^ 3) :
    Bytes.littleEndian 4 (opcode * 256 ^ 3 + n)
      = Bytes.littleEndian 3 n ++ [opcode.toUInt8] := by
  rw [Bytes.littleEndian, Bytes.bigEndian_succ_of_lt h, List.reverse_cons]
  rfl

/-! ## No branch goes further than the reach -/

theorem followWord?_le {place target : Int} {code rest : Bytes}
    (h : followWord? place code = some (target, rest)) :
    target + rest.length ≤ place + code.length + 32765 := by
  rcases code with _ | ⟨high, _ | ⟨low, after⟩⟩
  case nil => cases h
  case cons.nil => cases h
  case cons.cons =>
    have bound := BitVec.two_mul_toInt_lt
      (x := BitVec.ofNat 16 (Bytes.value [high, low]))
    rw [followWord?] at h
    cases h
    rw [List.length_cons, List.length_cons]
    omega

theorem follow68k?_le {address target : Int} {code rest : Bytes}
    (h : follow68k? address code = some (target, rest)) :
    target + rest.length ≤ address + code.length + 32765 := by
  rcases code with _ | ⟨opcode, _ | ⟨displacement, after⟩⟩
  case nil => cases h
  case cons.nil => cases h
  case cons.cons =>
    rw [List.length_cons, List.length_cons]
    rw [follow68k?] at h
    split_ifs at h with other word
    · have bound := followWord?_le h
      omega
    · have bound := BitVec.two_mul_toInt_lt
        (x := BitVec.ofNat 8 displacement.toNat)
      cases h
      omega

theorem followArm?_le {address target : Int} {code rest : Bytes}
    (h : followArm? address code = some (target, rest)) :
    target + rest.length ≤ address + code.length + 33554432 := by
  rcases code with _ | ⟨low, _ | ⟨middle, _ | ⟨high, _ | ⟨opcode, after⟩⟩⟩⟩
  case cons.cons.cons.cons =>
    rw [followArm?] at h
    split_ifs at h with other
    have bound := BitVec.two_mul_toInt_lt
      (x := BitVec.ofNat 24 (Bytes.littleValue [low, middle, high]))
    cases h
    simp only [List.length_cons]
    omega
  all_goals cases h

/-- A branch goes no further than the reach, counted from what follows it. -/
theorem Architecture.follow?_le {a : Architecture} {address target : Int}
    {code rest : Bytes} (h : a.follow? address code = some (target, rest)) :
    target + rest.length ≤ address + code.length + a.reach := by
  cases a with
  | m68k => exact follow68k?_le h
  | arm => exact followArm?_le h

theorem Enters.le_reach {a : Architecture} {branch : Bytes} {offset : Nat}
    (h : Enters a branch offset) : offset ≤ a.reach := by
  have bound := Architecture.follow?_le (h 0 [])
  rw [List.append_nil, List.length_nil] at bound
  omega

/-! ## Branches that go where they should -/

theorem enters_short {offset : Nat} (positive : 0 < offset)
    (small : offset ≤ 126) : Enters .m68k [0x60, offset.toUInt8] offset := by
  have size : offset.toUInt8.toNat = offset :=
    UInt8.toNat_ofNat_of_lt' (Nat.lt_of_le_of_lt small (by decide))
  have notWord : offset.toUInt8 ≠ 0x00 := by
    rw [Ne, ← UInt8.toNat_inj, size]
    exact Nat.ne_of_gt positive
  have notLong : offset.toUInt8 ≠ 0xFF := by
    rw [Ne, ← UInt8.toNat_inj, size]
    show offset ≠ 255
    omega
  intro address code
  have target : address - (2 : Nat) + 2 + (offset : Int) = address + offset := by
    omega
  show follow68k? (address - (2 : Nat)) (0x60 :: offset.toUInt8 :: code) = _
  rw [follow68k?, if_neg (not_or.mpr ⟨not_not_intro rfl, notLong⟩),
    if_neg notWord, size, toInt_ofNat_of_lt (by omega), target]

/-- The word counts from its own place, two bytes before the code. -/
theorem enters_word {offset : Nat} (small : offset ≤ 32765) :
    Enters .m68k (0x60 :: 0x00 :: Bytes.bigEndian 2 (offset + 2)) offset := by
  obtain ⟨high, low, digits⟩ :=
    List.length_eq_two.mp (Bytes.length_bigEndian 2 (offset + 2))
  have value : Bytes.value [high, low] = offset + 2 := by
    rw [← digits]
    exact Bytes.value_bigEndian_of_lt (by omega)
  intro address code
  have target : address - (4 : Nat) + 2 + ((offset + 2 : Nat) : Int)
      = address + offset := by
    omega
  rw [digits]
  show follow68k? (address - (4 : Nat)) (0x60 :: 0x00 :: high :: low :: code)
    = _
  rw [follow68k?, if_neg (by decide), if_pos rfl, followWord?, value,
    toInt_ofNat_of_lt (by omega), target]

theorem enters_arm {words : Nat} (small : words < 2 ^ 23) :
    Enters .arm (Bytes.littleEndian 4 (0xEA000000 + words))
      (4 + 4 * words) := by
  have opcode : 0xEA000000 + words = 0xEA * 256 ^ 3 + words := by omega
  have length : (Bytes.littleEndian 3 words).length = 3 := by
    rw [Bytes.littleEndian, List.length_reverse, Bytes.length_bigEndian]
  obtain ⟨low, middle, high, digits⟩ := List.length_eq_three.mp length
  have value : Bytes.littleValue [low, middle, high] = words := by
    rw [← digits, Bytes.littleEndian, Bytes.littleValue, List.reverse_reverse]
    exact Bytes.value_bigEndian_of_lt (by omega)
  intro address code
  have target : address - (4 : Nat) + 8 + 4 * (words : Int)
      = address + (4 + 4 * words : Nat) := by
    omega
  rw [opcode, littleEndian_opcode (by omega), digits]
  show followArm? (address - (4 : Nat)) (low :: middle :: high :: 0xEA :: code)
    = _
  rw [followArm?, if_neg (by decide), value, toInt_ofNat_of_lt (by omega),
    target]

/-! ## The branches that are made -/

/-- The offset at which a branch is made although none goes there: its
    displacement is one number too large for a word with a sign. -/
def IsOverlooked (a : Architecture) (offset : Nat) : Prop :=
  a = .m68k ∧ offset = 32766

theorem IsOverlooked.reach_lt {a : Architecture} {offset : Nat}
    (h : IsOverlooked a offset) : a.reach < offset := by
  obtain ⟨rfl, rfl⟩ := h
  decide

/-- What is made for an offset tells whether a branch goes there: if one is
    made, it does, and one is made if the offset is aligned and any does. -/
structure IsEntryBranch (a : Architecture) (offset : Nat)
    (made : Except PackError Bytes) : Prop where
  enters : ∀ branch, made = .ok branch → Enters a branch offset
  isOk_iff : made.isOk
    ↔ a.instructionSize ∣ offset ∧ ∃ branch, Enters a branch offset
  outOfRange_iff : made = .error (.entryOutOfRange offset a)
    ↔ a.instructionSize ∣ offset ∧ ∀ branch, ¬ Enters a branch offset

/-- Offsets between instructions are refused. -/
theorem entryBranch_of_not_dvd {a : Architecture} {offset : Nat}
    (h : ¬ a.instructionSize ∣ offset) :
    entryBranch a offset = .error (.entryMisaligned offset a) := by
  cases a with
  | m68k => exact if_pos fun aligned => h (Nat.dvd_of_mod_eq_zero aligned)
  | arm => exact if_pos fun aligned => h (Nat.dvd_of_mod_eq_zero aligned)

/-- No others are refused as such. -/
theorem entryBranch_misaligned_iff {a : Architecture} {offset : Nat} :
    entryBranch a offset = .error (.entryMisaligned offset a)
      ↔ ¬ a.instructionSize ∣ offset := by
  refine ⟨?_, entryBranch_of_not_dvd⟩
  intro refused aligned
  cases a with
  | m68k =>
      have even : offset % 2 = 0 := Nat.mod_eq_zero_of_dvd aligned
      rw [entryBranch, branch68k, if_neg (not_not_intro even)] at refused
      split_ifs at refused
      cases refused
  | arm =>
      have fourfold : offset % 4 = 0 := Nat.mod_eq_zero_of_dvd aligned
      rw [entryBranch, branchArm, if_neg (not_not_intro fourfold)] at refused
      split_ifs at refused
      cases refused

/-- Offsets that are too far away are refused. -/
theorem entryBranch_of_reach_lt {a : Architecture} {offset : Nat}
    (aligned : a.instructionSize ∣ offset) (far : a.reach < offset)
    (noticed : ¬ IsOverlooked a offset) :
    entryBranch a offset = .error (.entryOutOfRange offset a) := by
  cases a with
  | m68k =>
      have even : offset % 2 = 0 := Nat.mod_eq_zero_of_dvd aligned
      have far : 32765 < offset := far
      have noticed : offset ≠ 32766 := fun same => noticed ⟨rfl, same⟩
      rw [entryBranch, branch68k, if_neg (not_not_intro even),
        if_neg (by omega), if_neg (by omega)]
  | arm =>
      have fourfold : offset % 4 = 0 := Nat.mod_eq_zero_of_dvd aligned
      have far : 33554432 < offset := far
      rw [entryBranch, branchArm, if_neg (not_not_intro fourfold),
        if_pos far]

/-- Within the reach, the branch goes to the offset. -/
theorem entryBranch_of_le_reach {a : Architecture} {offset : Nat}
    (positive : 0 < offset) (aligned : a.instructionSize ∣ offset)
    (near : offset ≤ a.reach) :
    ∃ branch, entryBranch a offset = .ok branch ∧ Enters a branch offset := by
  cases a with
  | m68k =>
      have even : offset % 2 = 0 := Nat.mod_eq_zero_of_dvd aligned
      have near : offset ≤ 32765 := near
      rw [entryBranch, branch68k, if_neg (not_not_intro even)]
      by_cases small : offset ≤ 126
      · rw [if_pos small]
        exact ⟨_, rfl, enters_short positive small⟩
      · rw [if_neg small, if_pos (by omega)]
        exact ⟨_, rfl, enters_word near⟩
  | arm =>
      have fourfold : offset % 4 = 0 := Nat.mod_eq_zero_of_dvd aligned
      have near : offset ≤ 33554432 := near
      have words : 4 + 4 * ((offset - 4) / 4) = offset := by omega
      have small : (offset - 4) / 4 < 2 ^ 23 := by omega
      have enters := enters_arm small
      rw [words] at enters
      rw [entryBranch, branchArm, if_neg (not_not_intro fourfold),
        if_neg (Nat.not_lt.mpr near)]
      exact ⟨_, rfl, enters⟩

/-- The overlooked offset apart, what is made is right. -/
theorem isEntryBranch_entryBranch {a : Architecture} {offset : Nat}
    (positive : 0 < offset) (noticed : ¬ IsOverlooked a offset) :
    IsEntryBranch a offset (entryBranch a offset) := by
  by_cases aligned : a.instructionSize ∣ offset
  case neg =>
    rw [entryBranch_of_not_dvd aligned]
    refine ⟨?_, ?_, ?_⟩
    · rintro _ ⟨⟩
    · simp [aligned, Except.isOk, Except.toBool]
    · simp [aligned]
  case pos =>
    by_cases near : offset ≤ a.reach
    · obtain ⟨branch, made, enters⟩ :=
        entryBranch_of_le_reach positive aligned near
      rw [made]
      refine ⟨?_, ?_, ?_⟩
      · rintro _ ⟨⟩
        exact enters
      · exact ⟨fun _ => ⟨aligned, branch, enters⟩, fun _ => rfl⟩
      · simp only [reduceCtorEq, false_iff]
        exact fun unreachable => unreachable.2 branch enters
    · have unreachable : ∀ branch, ¬ Enters a branch offset :=
        fun _ enters => near enters.le_reach
      rw [entryBranch_of_reach_lt aligned (Nat.lt_of_not_le near) noticed]
      refine ⟨?_, ?_, ?_⟩
      · rintro _ ⟨⟩
      · simp [unreachable, Except.isOk, Except.toBool]
      · simp [aligned, unreachable]

theorem isEntryBranch_iff {a : Architecture} {offset : Nat}
    (positive : 0 < offset) :
    IsEntryBranch a offset (entryBranch a offset)
      ↔ ¬ IsOverlooked a offset := by
  refine ⟨?_, isEntryBranch_entryBranch positive⟩
  intro right overlooked
  have far := overlooked.reach_lt
  obtain ⟨rfl, rfl⟩ := overlooked
  have enters := right.enters [0x60, 0x00, 0x80, 0x00] (by cbv)
  exact absurd enters.le_reach (Nat.not_le.mpr far)

/-! ## The main code -/

/-- Main code that is started at its first byte, wherever that is, goes on
    at the byte of the section in it that the entry point is. -/
structure IsEntered (exe : Executable) (code : MainCode) : Prop where
  entry : exe.entry = code.text.address + code.entryOffset
  goesOn : ∀ start : Int, exe.architecture.follow? start code.bytes
    = some (start + (code.branch.length + code.entryOffset : Nat),
      code.text.data)
  lands : code.bytes.drop (code.branch.length + code.entryOffset)
    = code.text.data.drop code.entryOffset

/-- Main code begins with the branch to its entry point, if that is not its
    first byte. -/
theorem MainCode.branch_of_ofText {exe : Executable} {text : Section}
    {index : Nat} {code : MainCode} (h : ofText exe text index = .ok code) :
    exe.entry = text.address + code.entryOffset
      ∧ (0 < code.entryOffset →
        entryBranch exe.architecture code.entryOffset = .ok code.branch) := by
  rw [ofText] at h
  split at h
  case h_1 => cases h
  case h_2 offset inside =>
    rw [entryOffsetIn] at inside
    split_ifs at inside with within
    have entry : exe.entry = text.address + offset := by
      have same := Except.ok.inj inside
      omega
    split at h
    case isTrue start =>
      cases h
      refine ⟨entry, ?_⟩
      intro positive
      exact absurd start (Nat.ne_of_gt positive)
    case isFalse =>
      split at h
      case h_1 => cases h
      case h_2 branch made =>
        cases h
        exact ⟨entry, fun _ => made⟩

theorem IsEntered.le_reach {exe : Executable} {code : MainCode}
    (h : IsEntered exe code) : code.entryOffset ≤ exe.architecture.reach := by
  have bound := Architecture.follow?_le (h.goesOn 0)
  rw [MainCode.bytes, List.length_append] at bound
  omega

theorem HasMainCode.isEntered_iff {exe : Executable} {code : MainCode}
    (h : HasMainCode exe code) (positive : 0 < code.entryOffset) :
    IsEntered exe code
      ↔ ¬ IsOverlooked exe.architecture code.entryOffset := by
  constructor
  · intro entered overlooked
    exact absurd entered.le_reach (Nat.not_le.mpr overlooked.reach_lt)
  · intro noticed
    obtain ⟨entry, made⟩ := MainCode.branch_of_ofText h.made
    have enters := (isEntryBranch_entryBranch positive noticed).enters
      code.branch (made positive)
    refine ⟨entry, ?_, ?_⟩
    · intro start
      -- the branch goes to an offset from its end
      have goesOn := enters (start + code.branch.length) code.text.data
      rw [Int.add_sub_cancel, Int.add_assoc, ← Int.natCast_add] at goesOn
      exact goesOn
    · rw [MainCode.bytes, ← List.drop_drop, List.drop_left]

/-- **Where the main code is entered.**  An offset is refused as misaligned
    exactly if it lies between instructions.  A branch that is made for an
    offset goes there, and one is refused for an aligned offset exactly if
    none goes that far; this fails for the overlooked offset and for no other.
    Whatever is packed with an entry point further on in the main code
    reaches it from the first byte, unless it is at that offset. -/
theorem entry_outcome (a : Architecture) :
    (∀ offset, entryBranch a offset = .error (.entryMisaligned offset a)
      ↔ ¬ a.instructionSize ∣ offset)
    ∧ (∀ offset, 0 < offset →
      (IsEntryBranch a offset (entryBranch a offset)
        ↔ ¬ IsOverlooked a offset))
    ∧ ∀ (exe : Executable) (options : PackOptions) (origin : String)
        (db : Database .resource), exe.architecture = a →
      (pack exe options origin).result = .ok db →
      ∃ role code further data, IsMade exe options role code further data
        ∧ db = (Database.new .resource Header.blank).insertAll
          ((role.key, code.bytes) :: companions exe options role
            ++ further ++ data)
        ∧ exe.entry = code.text.address + code.entryOffset
        ∧ (0 < code.entryOffset →
          (IsEntered exe code ↔ ¬ IsOverlooked a code.entryOffset)) := by
  refine ⟨?_, ?_, ?_⟩
  · intro offset
    exact entryBranch_misaligned_iff
  · intro offset
    exact isEntryBranch_iff
  · rintro exe options origin db rfl packed
    obtain ⟨role, code, further, data, parts, rfl⟩ := pack_eq_insertAll packed
    exact ⟨role, code, further, data, parts, rfl,
      (MainCode.branch_of_ofText parts.main.made).1, parts.main.isEntered_iff⟩

/-- Code that is entered at its second instruction. -/
def lateEntry : Executable where
  architecture := .m68k
  entry := 0x1002
  sections := [⟨".text", 0x1000, 4, [0x4E, 0x71, 0x4E, 0x75], true⟩]
  symbols := []
  relocations := []

theorem entry_outcome_lateEntry :
    entryBranch .m68k 3 = .error (.entryMisaligned 3 .m68k)
      ∧ Enters .arm [0x01, 0x00, 0x00, 0xEA] 8
      ∧ entryBranch .arm 33554436
        = .error (.entryOutOfRange 33554436 .arm)
      ∧ ∃ db, (pack lateEntry (.standard .library) "sample").result = .ok db
        ∧ db.get? ⟨libraryType, 0⟩
          = some [0x60, 0x02, 0x4E, 0x71, 0x4E, 0x75]
        ∧ ∀ start : Int, Architecture.m68k.follow? start
            [0x60, 0x02, 0x4E, 0x71, 0x4E, 0x75]
          = some (start + 4, [0x4E, 0x71, 0x4E, 0x75]) := by
  obtain ⟨misaligned, -, packs⟩ := entry_outcome .m68k
  obtain ⟨-, branches, -⟩ := entry_outcome .arm
  have noticed {offset : Nat} : ¬ IsOverlooked .arm offset := fun h => nomatch h.1
  refine ⟨(misaligned 3).mpr (by decide),
    ((branches 8 (by decide)).mpr noticed).enters _ (by cbv), ?_, ?_⟩
  · refine ((branches _ (by decide)).mpr noticed).outOfRange_iff.mpr
      ⟨by decide, ?_⟩
    intro branch enters
    exact absurd enters.le_reach (by decide)
  · obtain ⟨db, packed⟩ := exists_eq_ok_of_isOk
      (show (pack lateEntry (.standard .library) "sample").result.isOk = true
        by cbv)
    obtain ⟨role, code, further, data, parts, rfl, -, entered⟩ :=
      packs _ _ _ _ rfl packed
    have hasRole : .ok ⟨⟨libraryType, 0⟩, false⟩
        = Except.ok (ε := PackError) role := parts.hasRole
    obtain rfl := Except.ok.inj hasRole
    have main : HasMainCode lateEntry
        ⟨⟨".text", 0x1000, 4, [0x4E, 0x71, 0x4E, 0x75], true⟩, 0, 2,
          [0x60, 0x02]⟩ := ⟨rfl, by cbv⟩
    obtain rfl := parts.main.unique main
    have numbered : some [] = some further := parts.numbers
    obtain rfl := Option.some.inj numbered
    obtain rfl := parts.discarded rfl
    refine ⟨_, packed, Database.get?_insert_self _ _ _, ?_⟩
    have noticed : ¬ IsOverlooked .m68k 2 := fun h => absurd h.2 (by decide)
    exact ((entered (by decide)).mpr noticed).goesOn

/-- For the overlooked offset, a branch is made that goes backwards, and no
    branch goes there. -/
theorem entryBranch_overshoots :
    entryBranch .m68k 32766 = .ok [0x60, 0x00, 0x80, 0x00]
      ∧ Architecture.m68k.follow? (-4) [0x60, 0x00, 0x80, 0x00]
        = some (-32770, [])
      ∧ ∀ branch, ¬ Enters .m68k branch 32766 := by
  refine ⟨by cbv, by decide, ?_⟩
  intro branch enters
  exact absurd enters.le_reach (by decide)

end Handheld
