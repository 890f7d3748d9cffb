import Handheld.Proofs.Packing.Failures
import Handheld.Proofs.Packing.Numbering

/-! # Standstills — when the packer gets stuck

    Three steps of a packing have no result for some inputs, not even an error:
    the count of the chains and the end of `.bss` may be too large, and a
    search among numbers all of which are taken has no end.

    • `freeId?_eq_none_iff`: when a search has no end;
    • `exists_furtherNumbers`: there is none among the numbers for further
      code, because sections with chains and what is made before them are not
      more than there are numbers;
    • `pack_eq_standstill_iff`: so a packing gets stuck for the other two
      reasons only, and these are decided by the sections and the options. -/

namespace Handheld

/-! ## Searches without an end -/

/-- A round of keys has all numbers. -/
theorem exists_after_eq (type : Tag) (id number : UInt16) :
    ∃ i < idCount, (⟨type, id⟩ : ResourceKey).after (i + 1)
      = ⟨type, number⟩ := by
  have start := id.toNat_lt
  have small := number.toNat_lt
  refine ⟨(number.toNat + 65535 - id.toNat) % 65536,
    Nat.mod_lt _ (by decide), ?_⟩
  refine ResourceKey.eq_of_type_of_toNat rfl ?_
  rw [ResourceKey.toNat_id_after]
  dsimp only
  omega

/-- A search has no end exactly if all numbers are taken. -/
theorem freeId?_eq_none_iff {type : Tag} {taken : List ResourceKey}
    {id : UInt16} :
    freeId? type taken idCount id = none
      ↔ ∀ number, (⟨type, number⟩ : ResourceKey) ∈ taken := by
  constructor
  · intro endless number
    obtain ⟨i, round, here⟩ := exists_after_eq type id number
    rw [← here]
    exact freeId?_eq_none endless i round
  · intro all
    cases found : freeId? type taken idCount id with
    | none => rfl
    | some next => exact absurd (all next) (freeId?_not_mem found)

/-- There are numbers for all further sections that have chains. -/
theorem exists_furtherNumbers {exe : Executable} {options : PackOptions}
    {role : CodeRole} (code : MainCode)
    (counted : (extraSections exe (extraNames options role)).length
      ≤ maxExtra) :
    ∃ further, numbered? role.key.type
        ((firstResources exe options role code).map Prod.fst) role.key.id
        ((extraSections exe (extraNames options role)).map Prod.fst)
      = some further := by
  cases alone : role.standalone with
  | true =>
      have nothing : extraNames options role = [] := if_pos alone
      rw [nothing]
      exact ⟨[], rfl⟩
  | false =>
      have first := length_firstResources_le exe options alone code
      have most : maxExtra = 65533 := rfl
      have ids : idCount = 65536 := rfl
      refine exists_numbered? _ _ ?_
      rw [List.length_map, List.length_map]
      omega

/-! ## Steps that do not get stuck -/

/-- The role of the code is found or refused. -/
theorem codeRole_ne_standstill (exe : Executable) (options : PackOptions)
    (cause : Standstill) :
    codeRole exe options ≠ .error (.standstill cause) := by
  intro h
  rw [codeRole] at h
  split at h
  · cases h
  · split at h
    · cases h
    · cases h

/-- A branch is made or refused. -/
theorem entryBranch_ne_standstill (a : Architecture) (offset : Nat)
    (cause : Standstill) :
    entryBranch a offset ≠ .error (.standstill cause) := by
  intro h
  cases a with
  | m68k =>
      rw [entryBranch, branch68k] at h
      repeat' split at h
      all_goals cases h
  | arm =>
      rw [entryBranch, branchArm] at h
      repeat' split at h
      all_goals cases h

/-- So is the main code. -/
theorem MainCode.ofText_ne_standstill (exe : Executable) (text : Section)
    (index : Nat) (cause : Standstill) :
    ofText exe text index ≠ .error (.standstill cause) := by
  intro h
  rw [ofText] at h
  split at h
  case h_1 e refused =>
    cases h
    rw [entryOffsetIn] at refused
    split at refused
    · cases refused
    · cases refused
  case h_2 offset _ =>
    split at h
    · cases h
    · split at h
      case h_1 e refused =>
        cases h
        exact entryBranch_ne_standstill _ _ _ refused
      case h_2 => cases h

/-! ## Packings that get stuck -/

/-- **When the packer gets stuck.**  If there are a role and main code, then
    it counts the chains, and is stuck if there are more further sections than
    that has numbers for.  Otherwise all of these get numbers, and it is stuck
    if data are packed and the end of `.bss` is no number of 64 bits.  It is
    never stuck in a search for a number. -/
theorem pack_eq_standstill_iff {exe : Executable} {options : PackOptions}
    {origin : String} {cause : Standstill} :
    (pack exe options origin).result = .error (.standstill cause)
      ↔ ∃ role code, codeRole exe options = .ok role ∧ HasMainCode exe code
        ∧ (cause = .chainOverflow
            ∧ maxExtra < (extraSections exe (extraNames options role)).length
          ∨ cause = .sizeOverflow
            ∧ (extraSections exe (extraNames options role)).length ≤ maxExtra
            ∧ discardsData options role = false
            ∧ 2 ^ 64 ≤ exe.bssEnd) := by
  rw [pack_eq_error_iff]
  constructor
  · intro fails
    cases fails with
    | noRole _ refused => exact absurd refused (codeRole_ne_standstill _ _ _)
    | noCode _ _ refused =>
        exact absurd refused (MainCode.ofText_ne_standstill _ _ _ _)
    | noChain hasRole main many =>
        exact ⟨_, _, hasRole, main, .inl ⟨rfl, many⟩⟩
    | noNumber _ _ counted taken =>
        obtain ⟨further, numbers⟩ := exists_furtherNumbers _ counted
        cases taken.symm.trans numbers
    | noSize begun keeps long =>
        exact ⟨_, _, begun.hasRole, begun.main,
          .inr ⟨rfl, begun.counted, keeps, long⟩⟩
  · rintro ⟨role, code, hasRole, main, stuck⟩
    rcases stuck with ⟨rfl, many⟩ | ⟨rfl, counted, keeps, long⟩
    · exact .noChain hasRole main many
    · obtain ⟨further, numbers⟩ := exists_furtherNumbers code counted
      exact .noSize ⟨hasRole, main, counted, numbers⟩ keeps long

/-- No search for a number goes on for ever. -/
theorem pack_ne_endlessSearch (exe : Executable) (options : PackOptions)
    (origin : String) :
    (pack exe options origin).result ≠ .error (.standstill .endlessSearch) := by
  intro stuck
  obtain ⟨_, _, _, _, ⟨chains, _⟩ | ⟨size, _⟩⟩ :=
    pack_eq_standstill_iff.mp stuck
  · cases chains
  · cases size

end Handheld
