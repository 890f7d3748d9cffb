import Handheld.Proofs.Packing.Entry
import Handheld.Proofs.Packing.Failures

/-! # The range of the entry — which entry points are packed

    An entry point that is not in the main code is refused, but the check
    lets the address behind the last byte pass:

    • `Executable.EntryIn` says that the entry point is the address of a byte
      of a section, and `Executable.EntryBehind` that it is the first address
      behind it;
    • `MainCode.ofText_eq_outside_iff`: it is refused exactly if it is
      neither;
    • `pack_eq_outside_iff`: nothing else that is packed is refused so;
    • `pack_entry_range` puts them together, with where the main code starts
      to run.  `entryBehind_accepted` is code that starts behind its end. -/

namespace Handheld

/-- The entry point is the address of a byte of the section. -/
def Executable.EntryIn (exe : Executable) (s : Section) : Prop :=
  s.address ≤ exe.entry ∧ exe.entry < s.address + s.size

/-- The entry point is the address behind the last byte of the section. -/
def Executable.EntryBehind (exe : Executable) (s : Section) : Prop :=
  exe.entry = s.address + s.size

instance (exe : Executable) (s : Section) : Decidable (exe.EntryIn s) :=
  inferInstanceAs (Decidable (_ ∧ _))

instance (exe : Executable) (s : Section) : Decidable (exe.EntryBehind s) :=
  inferInstanceAs (Decidable (_ = _))

/-! ## The main code -/

namespace MainCode

variable {exe : Executable} {text : Section} {index : Nat}

/-- The check lets the end pass. -/
theorem within_iff : (text.address ≤ exe.entry
      ∧ exe.entry - text.address ≤ text.size)
    ↔ exe.EntryIn text ∨ exe.EntryBehind text := by
  rw [Executable.EntryIn, Executable.EntryBehind]
  omega

/-- A branch is refused for its offset, never for where the code is. -/
theorem entryBranch_ne_outside (a : Architecture)
    (offset entry address size : Nat) :
    entryBranch a offset ≠ .error (.entryOutsideText entry address size) := by
  intro refused
  cases a with
  | m68k =>
      rw [entryBranch, branch68k] at refused
      split_ifs at refused <;> cases refused
  | arm =>
      rw [entryBranch, branchArm] at refused
      split_ifs at refused <;> cases refused

/-- What is refused because of the entry point. -/
theorem ofText_eq_outside_iff :
    ofText exe text index
        = .error (.entryOutsideText exe.entry text.address text.size)
      ↔ ¬ (exe.EntryIn text ∨ exe.EntryBehind text) := by
  rw [ofText, entryOffsetIn, ← within_iff]
  by_cases within : text.address ≤ exe.entry
      ∧ exe.entry - text.address ≤ text.size
  · refine iff_of_false ?_ (not_not_intro within)
    rw [if_pos within]
    intro refused
    dsimp only at refused
    split at refused
    case isTrue => cases refused
    case isFalse =>
      split at refused
      case h_1 e made =>
        cases refused
        exact entryBranch_ne_outside _ _ _ _ _ made
      case h_2 => cases refused
  · refine iff_of_true ?_ within
    rw [if_neg within]

end MainCode

/-! ## Packed executables -/

section Packed

variable {exe : Executable} {options : PackOptions} {text : Section}
  {index : Nat}

theorem codeRole_eq_error {e : PackError}
    (h : codeRole exe options = .error e) : ∃ length, e = .badDisposition length := by
  rw [codeRole] at h
  split at h
  case h_1 => cases h
  case h_2 =>
    split at h
    case isTrue =>
      cases h
      exact ⟨_, rfl⟩
    case isFalse => cases h

/-- An entry point is refused exactly if it is neither in the main code nor
    right behind it. -/
theorem pack_eq_outside_iff (found : exe.find? ".text" = some (text, index))
    (origin : String) :
    (pack exe options origin).result
        = .error (.entryOutsideText exe.entry text.address text.size)
      ↔ (∃ role, codeRole exe options = .ok role)
        ∧ ¬ (exe.EntryIn text ∨ exe.EntryBehind text) := by
  rw [← @MainCode.ofText_eq_outside_iff exe text index, pack_eq_error_iff]
  constructor
  · intro fails
    cases fails with
    | noRole _ refused =>
        obtain ⟨_, other⟩ := codeRole_eq_error refused
        cases other
    | noCode other hasRole refused =>
        cases found.symm.trans other
        exact ⟨⟨_, hasRole⟩, refused⟩
  · rintro ⟨⟨role, hasRole⟩, refused⟩
    exact .noCode found hasRole refused

/-- There is no branch in front of code that is entered at its start. -/
theorem MainCode.branch_eq_nil {code : MainCode}
    (h : ofText exe text index = .ok code) (start : code.entryOffset = 0) :
    code.branch = [] := by
  rw [ofText] at h
  split at h
  case h_1 => cases h
  case h_2 =>
    split at h
    case isTrue =>
      cases h
      rfl
    case isFalse further =>
      split at h
      case h_1 => cases h
      case h_2 =>
        cases h
        exact (further start).elim

/-- Main code is entered at one of its bytes exactly if the entry point is
    one, if all bytes of the section are there. -/
theorem HasMainCode.starts_inside_iff {code : MainCode}
    (main : HasMainCode exe code)
    (whole : code.text.data.length = code.text.size) :
    code.branch.length + code.entryOffset < code.bytes.length
      ↔ exe.EntryIn code.text := by
  obtain ⟨entry, -⟩ := MainCode.branch_of_ofText main.made
  rw [Executable.EntryIn, MainCode.bytes, List.length_append]
  omega

/-- The entry point of main code is in it or right behind it, and not both. -/
theorem HasMainCode.entryIn_iff {code : MainCode}
    (main : HasMainCode exe code) :
    exe.EntryIn code.text ↔ ¬ exe.EntryBehind code.text := by
  have passed : exe.EntryIn code.text ∨ exe.EntryBehind code.text := by
    by_contra outside
    have refused := (@MainCode.ofText_eq_outside_iff exe code.text
      code.index).mpr outside
    cases main.made.symm.trans refused
  constructor
  · intro inside behind
    exact absurd behind (Nat.ne_of_lt inside.2)
  · exact passed.resolve_right

end Packed

/-- **Which entry points are packed.**  An executable is refused because of
    its entry point exactly if that is neither the address of a byte of the
    code nor the one behind the last of them.  If it is packed, the main code
    is entered at one of its bytes, unless the entry point is behind the
    code or bytes of the section are missing: either at its first byte, or
    where the branch goes that is its beginning. -/
theorem pack_entry_range (exe : Executable) (options : PackOptions)
    (origin : String) :
    (∀ db, (pack exe options origin).result = .ok db →
      ∃ role code further data, IsMade exe options role code further data
        ∧ db = (Database.new .resource Header.blank).insertAll
          ((role.key, code.bytes) :: companions exe options role
            ++ further ++ data)
        ∧ exe.entry = code.text.address + code.entryOffset
        ∧ (exe.EntryIn code.text ↔ ¬ exe.EntryBehind code.text)
        ∧ (code.text.data.length = code.text.size →
          (code.branch.length + code.entryOffset < code.bytes.length
            ↔ ¬ exe.EntryBehind code.text))
        ∧ (code.entryOffset = 0 → code.branch = [])
        ∧ (0 < code.entryOffset →
          ¬ IsOverlooked exe.architecture code.entryOffset →
            IsEntered exe code))
    ∧ ∀ text index, exe.find? ".text" = some (text, index) →
      ((pack exe options origin).result
          = .error (.entryOutsideText exe.entry text.address text.size)
        ↔ (∃ role, codeRole exe options = .ok role)
          ∧ ¬ (exe.EntryIn text ∨ exe.EntryBehind text)) := by
  constructor
  · intro db packed
    obtain ⟨role, code, further, data, parts, rfl⟩ := pack_eq_insertAll packed
    have main := parts.main
    refine ⟨role, code, further, data, parts, rfl,
      (MainCode.branch_of_ofText main.made).1, main.entryIn_iff, ?_,
      MainCode.branch_eq_nil main.made, ?_⟩
    · intro whole
      rw [main.starts_inside_iff whole, main.entryIn_iff]
    · intro positive noticed
      exact (main.isEntered_iff positive).mpr noticed
  · intro text index found
    exact pack_eq_outside_iff found origin

/-- Code whose entry point is far behind it. -/
def farEntry : Executable :=
  { lateEntry with entry := 0x1006 }

theorem pack_entry_range_lateEntry :
    (∃ db, (pack lateEntry (.standard .library) "sample").result = .ok db)
      ∧ lateEntry.EntryIn ⟨".text", 0x1000, 4, [0x4E, 0x71, 0x4E, 0x75], true⟩
      ∧ (pack farEntry (.standard .library) "sample").result
        = .error (.entryOutsideText 0x1006 0x1000 4) := by
  obtain ⟨db, packed⟩ := exists_eq_ok_of_isOk
    (show (pack lateEntry (.standard .library) "sample").result.isOk = true
      by cbv)
  obtain ⟨inside, -⟩ :=
    pack_entry_range lateEntry (.standard .library) "sample"
  obtain ⟨-, outside⟩ := pack_entry_range farEntry (.standard .library) "sample"
  obtain ⟨role, code, further, data, parts, -, -, range, -⟩ :=
    inside db packed
  have main : HasMainCode lateEntry
      ⟨⟨".text", 0x1000, 4, [0x4E, 0x71, 0x4E, 0x75], true⟩, 0, 2,
        [0x60, 0x02]⟩ := ⟨rfl, by cbv⟩
  obtain rfl := parts.main.unique main
  refine ⟨⟨db, packed⟩, range.mpr (by decide), ?_⟩
  exact (outside _ 0 rfl).mpr ⟨⟨_, rfl⟩, by decide⟩

/-- Code of one instruction whose entry point is right behind it. -/
def entryBehind : Executable where
  architecture := .m68k
  entry := 0x1002
  sections := [⟨".text", 0x1000, 2, [0x4E, 0x75], true⟩]
  symbols := []
  relocations := []

/-- It is packed, with a branch to the end of the code. -/
theorem entryBehind_accepted :
    ∃ db, (pack entryBehind (.standard .library) "sample").result = .ok db
      ∧ db.get? ⟨libraryType, 0⟩ = some [0x60, 0x02, 0x4E, 0x75]
      ∧ (∀ start : Int,
        Architecture.m68k.follow? start [0x60, 0x02, 0x4E, 0x75]
          = some (start + 4, [0x4E, 0x75]))
      ∧ ¬ entryBehind.EntryIn ⟨".text", 0x1000, 2, [0x4E, 0x75], true⟩ := by
  obtain ⟨db, packed⟩ := exists_eq_ok_of_isOk
    (show (pack entryBehind (.standard .library) "sample").result.isOk = true
      by cbv)
  obtain ⟨role, code, further, data, parts, rfl⟩ := pack_eq_insertAll packed
  have hasRole : .ok ⟨⟨libraryType, 0⟩, false⟩
      = Except.ok (ε := PackError) role := parts.hasRole
  obtain rfl := Except.ok.inj hasRole
  have main : HasMainCode entryBehind
      ⟨⟨".text", 0x1000, 2, [0x4E, 0x75], true⟩, 0, 2, [0x60, 0x02]⟩ :=
    ⟨rfl, by cbv⟩
  obtain rfl := parts.main.unique main
  have numbered : some [] = some further := parts.numbers
  obtain rfl := Option.some.inj numbered
  obtain rfl := parts.discarded rfl
  have noticed : ¬ IsOverlooked .m68k 2 := fun h => absurd h.2 (by decide)
  exact ⟨_, packed, Database.get?_insert_self _ _ _,
    ((main.isEntered_iff (by decide)).mpr noticed).goesOn, by decide⟩

end Handheld
