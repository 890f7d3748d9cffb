import Handheld.Proofs.Packing.Resources

/-! # Failures — the ways in which a packing ends without resources

    A packing ends with the error of the first of its steps that fails,
    whatever was said before.

    • `PackFails` has one constructor for each step that can fail, with what
      held in the steps before it;
    • `pack_eq_error_iff`: these are all the failures that there are. -/

namespace Handheld

/-! ## Steps that fail -/

/-- A sequence fails with its first part, or with the second one. -/
theorem bind_eq_error_iff {ε α β : Type} {x : Except ε α}
    {f : α → Except ε β} {e : ε} :
    (x >>= f) = .error e ↔ x = .error e ∨ ∃ a, x = .ok a ∧ f a = .error e := by
  cases x with
  | ok a => simp [bind, Except.bind]
  | error d => simp [bind, Except.bind]

/-- An error that is seen as another one is one already. -/
theorem mapError_eq_error_iff {ε δ α : Type} {x : Except ε α} {f : ε → δ}
    {d : δ} : x.mapError f = .error d ↔ ∃ e, x = .error e ∧ d = f e := by
  cases x with
  | ok a => simp [Except.mapError]
  | error e => simp [Except.mapError, eq_comm]

/-- Searches that see all numbers are all that fails for further code. -/
theorem furtherCode_eq_error_iff {role : CodeRole} {first : List Resource}
    {extra : List (Section × Nat)} {e : PackError} :
    furtherCode role first extra = .error e
      ↔ numbered? role.key.type (first.map Prod.fst) role.key.id
          (extra.map Prod.fst) = none
        ∧ e = .standstill .endlessSearch := by
  rw [furtherCode]
  cases numbered? role.key.type (first.map Prod.fst) role.key.id
      (extra.map Prod.fst) with
  | some made => simp
  | none => simp [eq_comm]

/-- Data fail for the end of `.bss` or for their compression, unless they are
    left out. -/
theorem packDataUnlessDiscarded_eq_error_iff {l : Layout} {options : PackOptions}
    {role : CodeRole} {origin : String} {chains : Nat} {e : PackError} :
    (packDataUnlessDiscarded l options role origin chains).result = .error e
      ↔ discardsData options role = false
        ∧ (2 ^ 64 ≤ l.executable.bssEnd ∧ e = .standstill .sizeOverflow
          ∨ l.executable.bssEnd < 2 ^ 64 ∧ ∃ cause,
            Compression.encodeData
                (threadAll l l.executable.dataImage chains).image
                options.effort = .error cause
              ∧ e = .compression cause) := by
  rw [packDataUnlessDiscarded]
  cases discardsData options role with
  | true =>
      refine iff_of_false ?_ (fun h => Bool.noConfusion h.1)
      rw [if_pos rfl]
      intro fails
      split at fails
      · cases fails
      · cases fails
  | false =>
      rw [if_neg Bool.false_ne_true, result_packData, bind_eq_error_iff,
        Executable.checkSize_eq_error_iff]
      refine Iff.trans (or_congr_right ?_) (and_iff_right rfl).symm
      constructor
      · rintro ⟨_, short, fails⟩
        refine ⟨Executable.checkSize_eq_ok_iff.mp short, ?_⟩
        rcases bind_eq_error_iff.mp fails with encoding | ⟨_, _, returned⟩
        · exact mapError_eq_error_iff.mp encoding
        · cases returned
      · rintro ⟨short, fails⟩
        refine ⟨(), Executable.checkSize_eq_ok_iff.mpr short, ?_⟩
        exact bind_eq_error_iff.mpr (.inl (mapError_eq_error_iff.mpr fails))

/-! ## Packings that fail -/

/-- What holds when an executable is packed up to its data: there are a role
    and main code, and chains and numbers for all further sections. -/
structure IsBegun (exe : Executable) (options : PackOptions) (role : CodeRole)
    (code : MainCode) (further : List Resource) : Prop where
  hasRole : codeRole exe options = .ok role
  main : HasMainCode exe code
  counted : (extraSections exe (extraNames options role)).length ≤ maxExtra
  numbers : numbered? role.key.type
      ((firstResources exe options role code).map Prod.fst) role.key.id
      ((extraSections exe (extraNames options role)).map Prod.fst)
    = some further

/-- How a packing ends without resources. -/
inductive PackFails (exe : Executable) (options : PackOptions) :
    PackError → Prop
  | noText (missing : exe.find? ".text" = none) :
      PackFails exe options .textMissing
  | noRole {text : Section × Nat} {e : PackError}
      (found : exe.find? ".text" = some text)
      (refused : codeRole exe options = .error e) : PackFails exe options e
  | noCode {text : Section} {index : Nat} {role : CodeRole} {e : PackError}
      (found : exe.find? ".text" = some (text, index))
      (hasRole : codeRole exe options = .ok role)
      (refused : MainCode.ofText exe text index = .error e) :
      PackFails exe options e
  | noChain {role : CodeRole} {code : MainCode}
      (hasRole : codeRole exe options = .ok role) (main : HasMainCode exe code)
      (many : maxExtra
        < (extraSections exe (extraNames options role)).length) :
      PackFails exe options (.standstill .chainOverflow)
  | noNumber {role : CodeRole} {code : MainCode}
      (hasRole : codeRole exe options = .ok role) (main : HasMainCode exe code)
      (counted : (extraSections exe (extraNames options role)).length
        ≤ maxExtra)
      (taken : numbered? role.key.type
          ((firstResources exe options role code).map Prod.fst) role.key.id
          ((extraSections exe (extraNames options role)).map Prod.fst)
        = none) :
      PackFails exe options (.standstill .endlessSearch)
  | noSize {role : CodeRole} {code : MainCode} {further : List Resource}
      (begun : IsBegun exe options role code further)
      (keeps : discardsData options role = false)
      (long : 2 ^ 64 ≤ exe.bssEnd) :
      PackFails exe options (.standstill .sizeOverflow)
  | notEncoded {role : CodeRole} {code : MainCode} {further : List Resource}
      {cause : Compression.Error}
      (begun : IsBegun exe options role code further)
      (keeps : discardsData options role = false)
      (short : exe.bssEnd < 2 ^ 64)
      (refused : Compression.encodeData (packedThreads exe options code).image
        options.effort = .error cause) :
      PackFails exe options (.compression cause)

section Packed

variable {exe : Executable} {options : PackOptions} {role : CodeRole}
  {code : MainCode} {e : PackError}

/-- The steps after the main code. -/
theorem result_resources_of_main (hasRole : codeRole exe options = .ok role)
    (main : HasMainCode exe code) (origin : String) :
    (resources exe options origin).result = (do
      let extra := extraSections exe (extraNames options role)
      let chains ← countChains extra
      let further ← furtherCode role (firstResources exe options role code) extra
      let data ← (packDataUnlessDiscarded (layoutOf exe code extra) options role
        origin chains.toNat).result
      return firstResources exe options role code ++ further ++ data) := by
  rw [result_resources main.found, hasRole]
  show (MainCode.ofText exe code.text code.index >>= _) = _
  rw [main.made]
  rfl

/-- The steps for the data. -/
theorem IsBegun.result_resources {further : List Resource}
    (h : IsBegun exe options role code further) (origin : String) :
    (resources exe options origin).result = (do
      let extra := extraSections exe (extraNames options role)
      let data ← (packDataUnlessDiscarded (layoutOf exe code extra) options role
        origin (chainCount extra)).result
      return firstResources exe options role code ++ further ++ data) := by
  obtain ⟨chains, counts, number⟩ := exists_countChains h.counted
  rw [result_resources_of_main h.hasRole h.main]
  dsimp only
  rw [counts, ← number]
  show (furtherCode _ _ _ >>= _) = _
  rw [furtherCode_eq_ok_iff.mpr h.numbers]
  rfl

/-- Data fail to be packed for one of two reasons. -/
theorem packDataUnlessDiscarded_packed_eq_error_iff {origin : String} :
    (packDataUnlessDiscarded
        (layoutOf exe code (extraSections exe (extraNames options role)))
        options role origin
        (chainCount (extraSections exe (extraNames options role)))).result
      = .error e
      ↔ discardsData options role = false
        ∧ (2 ^ 64 ≤ exe.bssEnd ∧ e = .standstill .sizeOverflow
          ∨ exe.bssEnd < 2 ^ 64 ∧ ∃ cause,
            Compression.encodeData (packedThreads exe options code).image
                options.effort = .error cause
              ∧ e = .compression cause) := by
  rw [packDataUnlessDiscarded_eq_error_iff]
  refine and_congr_right fun keeps => ?_
  rw [extraNames_of_keeps keeps]
  rfl

/-- A packing that fails does so in one of these ways. -/
theorem packFails_of_eq_error {origin : String}
    (h : (resources exe options origin).result = .error e) :
    PackFails exe options e := by
  cases found : exe.find? ".text" with
  | none =>
      rw [result_resources_of_none found] at h
      cases h
      exact .noText found
  | some text =>
  obtain ⟨text, index⟩ := text
  rw [result_resources found] at h
  rcases bind_eq_error_iff.mp h with refused | ⟨role, hasRole, afterRole⟩
  · exact .noRole found refused
  rcases bind_eq_error_iff.mp afterRole with refused | ⟨code, hasCode, afterCode⟩
  · exact .noCode found hasRole refused
  obtain ⟨rfl, rfl⟩ := MainCode.ofText_eq_ok hasCode
  have main : HasMainCode exe code := ⟨found, hasCode⟩
  rcases bind_eq_error_iff.mp afterCode with stopped | ⟨chains, counts, afterChains⟩
  · obtain ⟨many, rfl⟩ := countChains_eq_error_iff.mp stopped
    exact .noChain hasRole main many
  obtain ⟨counted, number⟩ := countChains_eq_ok counts
  rcases bind_eq_error_iff.mp afterChains with endless | ⟨further, numbers, afterFurther⟩
  · obtain ⟨taken, rfl⟩ := furtherCode_eq_error_iff.mp endless
    exact .noNumber hasRole main counted taken
  have begun : IsBegun exe options role code further :=
    ⟨hasRole, main, counted, furtherCode_eq_ok_iff.mp numbers⟩
  rcases bind_eq_error_iff.mp afterFurther with noData | ⟨_, _, returned⟩
  · rw [number] at noData
    obtain ⟨keeps, ⟨long, rfl⟩ | ⟨short, cause, refused, rfl⟩⟩ :=
      packDataUnlessDiscarded_packed_eq_error_iff.mp noData
    · exact .noSize begun keeps long
    · exact .notEncoded begun keeps short refused
  · cases returned

/-- Each of these ways is one in which a packing fails. -/
theorem PackFails.eq_error (h : PackFails exe options e) (origin : String) :
    (resources exe options origin).result = .error e := by
  cases h with
  | noText missing => exact result_resources_of_none missing options origin
  | @noRole text _ found refused =>
      obtain ⟨text, index⟩ := text
      rw [result_resources found, refused]
      rfl
  | noCode found hasRole refused =>
      rw [result_resources found]
      refine bind_eq_error_iff.mpr (.inr ⟨_, hasRole, ?_⟩)
      exact bind_eq_error_iff.mpr (.inl refused)
  | noChain hasRole main many =>
      rw [result_resources_of_main hasRole main]
      refine bind_eq_error_iff.mpr (.inl ?_)
      exact countChains_eq_error_iff.mpr ⟨many, rfl⟩
  | noNumber hasRole main counted taken =>
      obtain ⟨chains, counts, -⟩ := exists_countChains counted
      rw [result_resources_of_main hasRole main]
      refine bind_eq_error_iff.mpr (.inr ⟨chains, counts, ?_⟩)
      refine bind_eq_error_iff.mpr (.inl ?_)
      exact furtherCode_eq_error_iff.mpr ⟨taken, rfl⟩
  | noSize begun keeps long =>
      rw [begun.result_resources]
      refine bind_eq_error_iff.mpr (.inl ?_)
      exact packDataUnlessDiscarded_packed_eq_error_iff.mpr
        ⟨keeps, .inl ⟨long, rfl⟩⟩
  | notEncoded begun keeps short refused =>
      rw [begun.result_resources]
      refine bind_eq_error_iff.mpr (.inl ?_)
      exact packDataUnlessDiscarded_packed_eq_error_iff.mpr
        ⟨keeps, .inr ⟨short, _, refused, rfl⟩⟩

/-- **How a packing fails.**  It ends with an error exactly if one of its steps
    fails with this error, after all steps before it have succeeded. -/
theorem pack_eq_error_iff {origin : String} :
    (pack exe options origin).result = .error e ↔ PackFails exe options e := by
  rw [pack, Run.result_bind, bind_eq_error_iff]
  constructor
  · rintro (fails | ⟨_, _, returned⟩)
    · exact packFails_of_eq_error fails
    · cases returned
  · intro fails
    exact .inl (fails.eq_error origin)

end Packed

end Handheld
